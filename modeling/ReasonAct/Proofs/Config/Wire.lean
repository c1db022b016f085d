import ReasonAct.Config.Basic
import ReasonAct.Proofs.Json.Fields
import ReasonAct.Proofs.Json.Wire
set_option autoImplicit false

namespace ReasonAct

open Json Json.Source

namespace Config

def arenaSource (a : ArenaSettings) : Source :=
  .object [("initial_capacity", .uint64 a.initialCapacity), ("block_size", .uint64 a.blockSize)]

def agentSource (a : AgentDefaults) : Source :=
  .object (("max_iterations", .uint32 a.maxIterations) ::
    (given "timeout_ms" .uint64 a.timeoutMs ++ given "instructions" .string a.instructions))

def memorySource (maxMessages : UInt64) : Source := .object [("max_messages", .uint64 maxMessages)]

def sessionSource (workingDir : Option String) : Source :=
  .object (given "working_dir" .string workingDir)

theorem source_eq (c : Config) : c.source = .object
    [("arena",arenaSource c.arena),("agent",agentSource c.agent),
      ("memory",memorySource c.maxMessages),("session",sessionSource c.workingDir)] := rfl

def arenaShape : List Field :=
  [.defaulting "initial_capacity" (.uint64 ArenaSettings.standard.initialCapacity),
    .defaulting "block_size" (.uint64 ArenaSettings.standard.blockSize)]

def agentShape : List Field :=
  [.defaulting "max_iterations" (.uint32 defaultMaxIterations), .plain "timeout_ms",
    .plain "instructions"]

def memoryShape : List Field := [.defaulting "max_messages" (.uint64 0)]

def sessionShape : List Field := [.plain "working_dir"]

def shape : List Field :=
  [⟨"arena", Recast arenaShape, some (arenaSource .standard)⟩,
    ⟨"agent", Recast agentShape, some (agentSource .standard)⟩,
    ⟨"memory", Recast memoryShape, some (memorySource 0)⟩,
    ⟨"session", Recast sessionShape, some (sessionSource none)⟩]

def wire : Wire Config := ⟨source, ofSource?, Recast shape⟩

theorem same_agent (a : AgentDefaults) : Recast agentShape (agentSource a) (agentSource a) :=
  Recast.refl (.keep rfl (.given a.timeoutMs (.given_last a.instructions)))

theorem same_session (dir : Option String) :
    Recast sessionShape (sessionSource dir) (sessionSource dir) := Recast.refl (.given_last dir)

theorem same (c : Config) : wire.alters c.source c.source :=
  Recast.refl (.keep (Recast.refl (.keep rfl (.keep rfl .nil))) (.keep (same_agent c.agent)
    (.keep (Recast.refl (.keep rfl .nil)) (.keep (same_session c.workingDir) .nil))))

theorem arenaOf?_source (a : ArenaSettings) : arenaOf? (arenaSource a) = some a := by
  simp [arenaOf?,arenaSource,record?,arenaFields,Record.defaulted,Record.get?,List.lookup_cons]

theorem agentOf?_source (a : AgentDefaults) : agentOf? (agentSource a) = some a := by
  obtain ⟨r,hr,hget⟩ := (same_agent a).written (show _ = agentFields from rfl) (by decide)
  have hrecord : (agentSource a).record? agentFields = some r := hr
  simp only [List.lookup_cons,List.lookup_append,lookup_given] at hget
  have htimeout : r.optional "timeout_ms" uint64? = some a.timeoutMs :=
    Record.optional_uint64 (by simp [hget])
  have hinstructions : r.optional "instructions" Source.string? = some a.instructions :=
    Record.optional_string (by simp [hget])
  simp [agentOf?,hrecord,htimeout,hinstructions,Record.defaulted,hget]

theorem memoryOf?_source (n : UInt64) : memoryOf? (memorySource n) = some n := by
  simp [memoryOf?,memorySource,record?,memoryFields,Record.defaulted,Record.get?]

theorem sessionOf?_source (dir : Option String) : sessionOf? (sessionSource dir) = some dir := by
  obtain ⟨r,hr,hget⟩ := (same_session dir).written (show _ = sessionFields from rfl) (by decide)
  have hrecord : (sessionSource dir).record? sessionFields = some r := hr
  simp only [lookup_given] at hget
  have hdir : r.optional "working_dir" Source.string? = some dir :=
    Record.optional_string (by simp [hget])
  simp [sessionOf?,hrecord,hdir]

theorem respects_arena : Respects (Recast arenaShape) arenaOf? :=
  Recast.respects rfl (by decide) fun r r' h => by
    rw [h.defaulted (some (.uint64 ArenaSettings.standard.initialCapacity)) (respects_eq uint64?),
      h.defaulted (some (.uint64 ArenaSettings.standard.blockSize)) (respects_eq uint64?)] <;>
      simp [arenaShape]

theorem respects_agent : Respects (Recast agentShape) agentOf? :=
  Recast.respects rfl (by decide) fun r r' h => by
    rw [h.defaulted (some (.uint32 defaultMaxIterations)) (respects_eq uint32?),h.optional none,
      h.optional none] <;> simp [agentShape]

theorem respects_memory : Respects (Recast memoryShape) memoryOf? :=
  Recast.respects rfl (by decide) fun r r' h => by
    rw [h.defaulted (some (.uint64 0)) (respects_eq uint64?)] <;> simp [memoryShape]

theorem respects_session : Respects (Recast sessionShape) sessionOf? :=
  Recast.respects rfl (by decide) fun r r' h => by
    rw [h.optional none] <;> simp [sessionShape]

theorem respects : Respects wire.alters ofSource? :=
  Recast.respects rfl (by decide) fun r r' h => by
    rw [h.defaulted (some (arenaSource .standard)) respects_arena,
      h.defaulted (some (agentSource .standard)) respects_agent,
      h.defaulted (some (memorySource 0)) respects_memory,
      h.defaulted (some (sessionSource none)) respects_session] <;>
      simp [shape,arenaOf?_source,agentOf?_source,memoryOf?_source,sessionOf?_source]

theorem ofSource?_source (c : Config) : ofSource? c.source = some c := by
  simp [ofSource?,source_eq,record?,sections,Record.defaulted,Record.get?,List.lookup_cons,
    arenaOf?_source,agentOf?_source,memoryOf?_source,sessionOf?_source]

theorem within (c : Config) : c.source.Within 2 := by
  simp [source,or_imp,forall_and]

theorem survives (c : Config) : wire.Survives c :=
  Wire.survives respects (same c) (ofSource?_source c) ((within c).mono (by decide))

end Config

end ReasonAct
