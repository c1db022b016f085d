import ReasonAct.Config.Place
import ReasonAct.Proofs.Config.Document
import ReasonAct.Proofs.Config.Wire
import ReasonAct.Proofs.Text.Utf8
set_option autoImplicit false

namespace ReasonAct.Config

open Toml (Bare Entries Holds Lines Reads)

structure Fits (c : Config) : Prop where
  initialCapacity : c.arena.initialCapacity.toNat < Nat.pow 2 63
  blockSize : c.arena.blockSize.toNat < Nat.pow 2 63
  timeoutMs : ∀ ms ∈ c.agent.timeoutMs, ms.toNat < Nat.pow 2 63
  maxMessages : c.maxMessages.toNat < Nat.pow 2 63

def entryGiven {α : Type} (key : String) (v : α → Toml) : Option α → Entries
  | none => []
  | some x => [(key, v x)]

/-- What the TOML form of a configuration says. -/
def tomlSections (c : Config) : List (String × Entries) :=
  [("arena", [("initial_capacity", .integer c.arena.initialCapacity.toNat),
      ("block_size", .integer c.arena.blockSize.toNat)]),
    ("agent", ("max_iterations", .integer c.agent.maxIterations.toNat) ::
      (entryGiven "timeout_ms" (fun n : UInt64 => .integer n.toNat) c.agent.timeoutMs ++
        entryGiven "instructions" .string c.agent.instructions)),
    ("memory", [("max_messages", .integer c.maxMessages.toNat)]),
    ("session", entryGiven "working_dir" .string c.workingDir)]

theorem source_tablesOf (c : Config) :
    (Toml.table .header (Toml.tablesOf c.tomlSections)).source = c.source := by
  obtain ⟨arena,⟨iterations,timeout,instructions⟩,messages,dir⟩ := c
  cases timeout <;> cases instructions <;> cases dir <;> rfl

theorem tomlNat?_eq {n : Nat} (hn : 2*n < UInt64.size) :
    tomlNat? n = some (Decimal.natDigits n) := if_pos hn

theorem holds_given {α : Type} (key : String) (hkey : Bare key) (write : α → Option (List Char))
    (v : α → Toml) (x : Option α)
    (h : ∀ a ∈ x, ∃ written, write a = some written ∧ Reads written (v a)) :
    ∃ cs, lineGiven key write x = some cs ∧ Holds cs (entryGiven key v x) := by
  cases x with
  | none => exact ⟨[],rfl,.nil⟩
  | some a =>
    obtain ⟨written,hwrite,hreads⟩ := h a rfl
    exact ⟨line key written,by simp [lineGiven,hwrite],.line hkey hreads⟩

theorem holds_text (key : String) (hkey : Bare key) (x : Option String) :
    ∃ cs, lineGiven key (fun s => some (Toml.quoted s)) x = some cs ∧
      Holds cs (entryGiven key .string x) :=
  holds_given key hkey _ _ x fun s _ => ⟨_,rfl,Toml.reads_quoted s⟩

theorem two_mul_lt {n : Nat} (h : n < Nat.pow 2 63) : 2*n < UInt64.size := by
  have hpow : Nat.pow 2 63 = 9223372036854775808 := rfl
  have hsize : UInt64.size = 18446744073709551616 := rfl
  omega

theorem holds_number (key : String) (hkey : Bare key) (x : Option UInt64)
    (h : ∀ n ∈ x, n.toNat < Nat.pow 2 63) :
    ∃ cs, lineGiven key (fun n : UInt64 => tomlNat? n.toNat) x = some cs ∧
      Holds cs (entryGiven key (fun n => .integer n.toNat) x) :=
  holds_given key hkey _ _ x fun n hn =>
    ⟨_,tomlNat?_eq (two_mul_lt (h n hn)),Toml.reads_natDigits (two_mul_lt (h n hn))⟩

theorem lines_toml {c : Config} (h : c.Fits) :
    ∃ cs, c.tomlChars? = some ('[' :: cs) ∧
      Lines ('[' :: cs) (Toml.statementsOf c.tomlSections) := by
  have hcapacity := two_mul_lt h.initialCapacity
  have hblock := two_mul_lt h.blockSize
  have hiterations : 2*c.agent.maxIterations.toNat < UInt64.size := by
    have hlt : c.agent.maxIterations.toNat < UInt32.size := c.agent.maxIterations.toNat_lt_size
    have hsize : UInt32.size = 4294967296 := rfl
    have hsize' : UInt64.size = 18446744073709551616 := rfl
    omega
  have hmessages := two_mul_lt h.maxMessages
  obtain ⟨timeout,htimeout,holdsTimeout⟩ :=
    holds_number "timeout_ms" (by decide) c.agent.timeoutMs h.timeoutMs
  obtain ⟨instructions,hinstructions,holdsInstructions⟩ :=
    holds_text "instructions" (by decide) c.agent.instructions
  obtain ⟨dir,hdir,holdsDir⟩ := holds_text "working_dir" (by decide) c.workingDir
  have hsession := Lines.inSection (show Bare "session" by decide) holdsDir .nil
  have hmemory := Lines.inSection (show Bare "memory" by decide)
    (Holds.line (show Bare "max_messages" by decide) (Toml.reads_natDigits hmessages))
    hsession.blank
  have hagent := Lines.inSection (show Bare "agent" by decide)
    ((Holds.line (show Bare "max_iterations" by decide)
      (Toml.reads_natDigits hiterations)).append (holdsTimeout.append holdsInstructions))
    hmemory.blank
  have harena := Lines.inSection (show Bare "arena" by decide)
    ((Holds.line (show Bare "initial_capacity" by decide) (Toml.reads_natDigits hcapacity)).append
      (Holds.line (show Bare "block_size" by decide) (Toml.reads_natDigits hblock)))
    hagent.blank
  refine ⟨_,?_,harena⟩
  simp [tomlChars?,tomlNat?_eq,hcapacity,hblock,hiterations,hmessages,htimeout,hinstructions,
    hdir,heading]

theorem keys_tomlSections (c : Config) : ∀ s ∈ c.tomlSections, (s.2.map Prod.fst).Nodup := by
  obtain ⟨arena,⟨iterations,timeout,instructions⟩,messages,dir⟩ := c
  simp only [tomlSections,List.forall_mem_cons]
  cases timeout <;> cases instructions <;> cases dir <;> simp [entryGiven]

theorem parse?_toml {c : Config} (h : c.Fits) :
    Toml.parse? c.toml = some (.table .header (Toml.tablesOf c.tomlSections)) := by
  obtain ⟨cs,hchars,hlines⟩ := lines_toml h
  have htoml : c.toml = String.ofList ('[' :: cs) := by rw [toml,hchars]; rfl
  have hnames : (c.tomlSections.map Prod.fst).Nodup := by
    simp only [tomlSections,List.map_cons,List.map_nil]
    decide
  rw [htoml]
  exact Toml.parse?_lines (by decide) hlines hnames c.keys_tomlSections

theorem ofTables?_source (c : Config) : ofTables? c.source = some c := by
  have hfitted : ofTables? c.source = ofSource? c.source := rfl
  rw [hfitted,ofSource?_source]

theorem ofToml?_toml {c : Config} (h : c.Fits) : ofToml? c.toml = some c := by
  rw [ofToml?,parse?_toml h,Option.bind_some,source_tablesOf,ofTables?_source]

theorem present_of_read {t : FileTree} {path : String} {bytes : List UInt8}
    (h : t.read path = .ok bytes) : t.present path = true := by
  unfold FileTree.present
  cases hresolve : t.resolve path with
  | ok names => rfl
  | error e => simp [FileTree.read,hresolve,bind,Except.bind] at h

theorem config_file {t : FileTree} {path s : String}
    (h : t.read path = .ok (Text.Utf8.encode s)) : t.config path = .text s := by
  simp [FileTree.config,present_of_read h,h]

theorem validate_cases (c : Config) :
    c.validate = .ok () ∨ ∃ reason, c.validate = .error (.invalid reason) := by
  unfold validate
  split
  · exact .inr ⟨_,rfl⟩
  · split
    · exact .inr ⟨_,rfl⟩
    · exact .inl rfl

/-- A configuration is read back from its text, and from a file with its text if it is valid. -/
theorem survives_toml (c : Config) (h : c.Fits) :
    ofToml? c.toml = some c ∧
    ∀ (t : FileTree) (path : String), t.read path = .ok (Text.Utf8.encode c.toml) →
      (c.validate = .ok () → load path (t.config path) = .ok c) ∧
      (c.validate ≠ .ok () → ∃ reason, load path (t.config path) = .error (.invalid reason)) := by
  refine ⟨ofToml?_toml h,fun t path hread => ?_⟩
  have hload : load path (t.config path) = c.validate.map fun _ => c := by
    simp only [config_file hread,load,ofToml?_toml h]
  rw [hload]
  constructor
  · intro hvalid
    rw [hvalid]
    rfl
  · intro hinvalid
    obtain ⟨reason,hreason⟩ := c.validate_cases.resolve_left hinvalid
    exact ⟨reason,by rw [hreason]; rfl⟩

def awkward : Config :=
  { standard with
    agent := { AgentDefaults.standard with
      timeoutMs := some 9223372036854775807
      instructions := some "\"\"\"\x27\x27\x27\\\r\n\x00\"" }
    workingDir := some "" }

def awkwardTree : FileTree :=
  ⟨.directory [("config.toml", .file (Text.Utf8.encode awkward.toml))], []⟩

theorem survives_toml_awkward :
    ofToml? awkward.toml = some awkward ∧
    load "/config.toml" (awkwardTree.config "/config.toml") = .ok awkward := by
  have hfits : awkward.Fits := by
    refine ⟨by decide,by decide,?_,by decide⟩
    rintro ms ⟨⟩
    decide
  obtain ⟨htext,hfile⟩ := survives_toml awkward hfits
  exact ⟨htext,(hfile awkwardTree "/config.toml" rfl).1 rfl⟩

end ReasonAct.Config
