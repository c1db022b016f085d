import ReasonAct.Chat.Request
import ReasonAct.Chat.Response
import ReasonAct.Proofs.Json.Fields
import ReasonAct.Proofs.Json.Wire
import ReasonAct.Proofs.Time.Rfc3339
set_option autoImplicit false

namespace ReasonAct

open Json Json.Source

@[simp] theorem Role.ofSource?_source (r : Role) : ofSource? r.source = some r := by
  cases r <;> rfl

@[simp] theorem Role.within (n : Nat) (r : Role) : r.source.Within n := .string n r.name

theorem instant?_instant {i : Instant} (h : i.Plain) : instant? (instant i) = some i :=
  h.ofText?_text

namespace ToolCall

def fields : List Field := [.plain "id", .plain "name", .plain "arguments"]

def wire : Wire ToolCall := ⟨source, ofSource?, Recast fields⟩

theorem respects : Respects wire.alters ofSource? :=
  Recast.respects rfl (by decide) fun r r' h => by
    rw [h.plain,h.plain,h.plain] <;> simp [fields]

theorem same (c : ToolCall) : wire.alters c.source c.source :=
  Recast.refl (.keep rfl (.keep rfl (.keep rfl .nil)))

theorem ofSource?_source (c : ToolCall) : ofSource? c.source = some c := by
  simp [ofSource?,source,record?,Record.required,Record.get?,List.lookup_cons,Source.string?]

theorem within (c : ToolCall) : c.source.Within 1 := by simp [source]

theorem survives (c : ToolCall) : wire.Survives c :=
  Wire.survives respects (same c) (ofSource?_source c) ((within c).mono (by decide))

end ToolCall

namespace ToolResult

def fields : List Field :=
  [.plain "tool_call_id", .plain "output", .defaulting "is_error" (.bool false)]

def wire : Wire ToolResult := ⟨source, ofSource?, Recast fields⟩

theorem respects : Respects wire.alters ofSource? :=
  Recast.respects rfl (by decide) fun r r' h => by
    rw [h.plain,h.plain,h.defaulted (some (.bool false)) (respects_eq bool?)] <;>
      simp [fields,bool?]

theorem same (r : ToolResult) : wire.alters r.source r.source :=
  Recast.refl (.keep rfl (.keep rfl (.keep rfl .nil)))

theorem ofSource?_source (r : ToolResult) : ofSource? r.source = some r := by
  simp [ofSource?,source,record?,Record.required,Record.defaulted,Record.get?,List.lookup_cons,
    Source.string?,bool?]

theorem within (r : ToolResult) : r.source.Within 1 := by simp [source]

theorem survives (r : ToolResult) : wire.Survives r :=
  Wire.survives respects (same r) (ofSource?_source r) ((within r).mono (by decide))

end ToolResult

namespace Usage

def fields : List Field := fieldNames.map fun name => .defaulting name (.uint64 0)

def wire : Wire Usage := ⟨source, ofSource?, Recast fields⟩

theorem respects : Respects wire.alters ofSource? :=
  Recast.respects rfl (by decide) fun r r' h => by
    have hcounter (name : String) (hname : name ∈ fieldNames) :
        r'.defaulted name 0 uint64? = r.defaulted name 0 uint64? :=
      h.defaulted (some (.uint64 0)) (respects_eq uint64?) (by simp)
        (List.mem_map.mpr ⟨name,hname,rfl⟩)
    dsimp only
    rw [hcounter,hcounter,hcounter,hcounter,hcounter,hcounter,hcounter,hcounter,hcounter] <;>
      simp [fieldNames]

theorem same (u : Usage) : wire.alters u.source u.source :=
  Recast.refl (.keep rfl (.keep rfl (.keep rfl (.keep rfl (.keep rfl (.keep rfl (.keep rfl
    (.keep rfl (.keep rfl .nil)))))))))

theorem ofSource?_source (u : Usage) : ofSource? u.source = some u := by
  simp [ofSource?,source,record?,fieldNames,Record.defaulted,Record.get?,List.lookup_cons]

theorem within (u : Usage) : u.source.Within 1 := by simp [source]

theorem survives (u : Usage) : wire.Survives u :=
  Wire.survives respects (same u) (ofSource?_source u) ((within u).mono (by decide))

end Usage

namespace ContentBlock

def fields : String → List Field
  | "text" => [.plain "text"]
  | "thinking" => [.plain "thinking", .plain "signature"]
  | "redacted_thinking" => [.plain "data"]
  | "reasoning" => [.plain "text"]
  | "tool_use" => [.plain "id", .plain "name", .plain "input"]
  | "tool_result" => [.plain "tool_use_id", .plain "content", .defaulting "is_error" (.bool false)]
  | _ => []

def wire : Wire ContentBlock := ⟨source, ofSource?, Retagged fields⟩

theorem type_not_mem (kind : String) : "type" ∉ Field.names (fields kind) := by
  unfold fields
  split <;> decide

theorem respects_kind (kind : String) : Respects (Recast (fields kind)) (ofKind? kind) := by
  unfold fields
  split
  · exact Recast.respects rfl (by decide) fun r r' h => by
      rw [h.plain (by simp)]
  · exact Recast.respects rfl (by decide) fun r r' h => by
      rw [h.plain,h.optional none] <;> simp
  · exact Recast.respects rfl (by decide) fun r r' h => by
      rw [h.plain (by simp)]
  · exact Recast.respects rfl (by decide) fun r r' h => by
      rw [h.plain (by simp)]
  · exact Recast.respects rfl (by decide) fun r r' h => by
      rw [h.plain,h.plain,h.plain] <;> simp
  · exact Recast.respects rfl (by decide) fun r r' h => by
      rw [h.plain,h.plain,h.defaulted (some (.bool false)) (respects_eq bool?)] <;> simp [bool?]
  · intro s s' _ _ _
    unfold ofKind?
    split <;> simp_all

theorem respects : Respects wire.alters ofSource? := Retagged.respects type_not_mem respects_kind

theorem same (b : ContentBlock) : wire.alters b.source b.source := by
  cases b with
  | text _ => exact Retagged.refl (.keep rfl .nil)
  | thinking _ signature =>
    exact Retagged.refl (.keep rfl (by simpa using Kept.given signature .nil))
  | redactedThinking _ => exact Retagged.refl (.keep rfl .nil)
  | reasoning _ => exact Retagged.refl (.keep rfl .nil)
  | toolUse _ _ _ => exact Retagged.refl (.keep rfl (.keep rfl (.keep rfl .nil)))
  | toolResult _ _ _ => exact Retagged.refl (.keep rfl (.keep rfl (.keep rfl .nil)))

theorem ofSource?_source (b : ContentBlock) : ofSource? b.source = some b := by
  cases b with
  | thinking t signature =>
    cases signature <;> simp [ofSource?,source,kind,given,tagged?_written,ofKind?,record?,
      Record.required,Record.optional,Record.get?,List.lookup_cons,Source.string?]
  | _ => simp [ofSource?,source,kind,tagged?_written,ofKind?,record?,Record.required,
      Record.defaulted,Record.get?,List.lookup_cons,Source.string?,bool?]

theorem within (b : ContentBlock) : b.source.Within 1 := by cases b <;> simp [source]

theorem survives (b : ContentBlock) : wire.Survives b :=
  Wire.survives respects (same b) (ofSource?_source b) ((within b).mono (by decide))

end ContentBlock

namespace Message

def fields : List Field :=
  [.plain "role", .plain "content", .holding "blocks" (Each ContentBlock.wire.alters),
    .plain "tool_call_id", .holding "tool_calls" (Each ToolCall.wire.alters), .plain "timestamp"]

def wire : Wire Message := ⟨source, ofSource?, Recast fields⟩

theorem respects : Respects wire.alters ofSource? :=
  Recast.respects rfl (by decide) fun r r' h => by
    rw [h.plain,h.optional none,h.defaulted none (Each.respects ContentBlock.respects),
      h.optional none,h.defaulted none (Each.respects ToolCall.respects),h.plain] <;> simp [fields]

theorem same (m : Message) : wire.alters m.source m.source := by
  simp only [source,List.append_assoc]
  exact Recast.refl (.keep rfl (.given m.content (.listed m.blocks (fun b _ => b.same)
    (.given m.toolCallId (.listed m.toolCalls (fun c _ => c.same) (.keep rfl .nil))))))

theorem ofSource?_source {m : Message} (h : m.timestamp.Plain) : ofSource? m.source = some m := by
  obtain ⟨r,hr,hget⟩ := (same m).written (show _ = fieldNames from rfl) (by decide)
  have hrecord : m.source.record? fieldNames = some r := hr
  simp only [List.lookup_cons,List.lookup_append,lookup_given,lookup_listed] at hget
  have hcontent : r.optional "content" Source.string? = some m.content :=
    Record.optional_string (by simp [hget])
  have hblocks : r.defaulted "blocks" [] (list? ContentBlock.ofSource?) = some m.blocks :=
    Record.defaulted_listed (by simp [hget]) fun b _ => b.ofSource?_source
  have hcall : r.optional "tool_call_id" Source.string? = some m.toolCallId :=
    Record.optional_string (by simp [hget])
  have hcalls : r.defaulted "tool_calls" [] (list? ToolCall.ofSource?) = some m.toolCalls :=
    Record.defaulted_listed (by simp [hget]) fun c _ => c.ofSource?_source
  simp [ofSource?,hrecord,hcontent,hblocks,hcall,hcalls,Record.required,hget,instant?_instant h]

theorem within (m : Message) : m.source.Within 3 := by
  have hblock (b : ContentBlock) := b.within
  have hcall (c : ToolCall) := c.within
  simp [source,or_imp,forall_and,hblock,hcall]

theorem survives {m : Message} (h : m.timestamp.Plain) : wire.Survives m :=
  Wire.survives respects (same m) (ofSource?_source h) ((within m).mono (by decide))

end Message

namespace ChatResponse

def fields : List Field :=
  [.defaulting "id" (.string ""), .plain "content",
    .holding "blocks" (Each ContentBlock.wire.alters),
    .holding "tool_calls" (Each ToolCall.wire.alters), .plain "finish_reason",
    ⟨"usage", Usage.wire.alters, some Usage.zero.source⟩]

def wire : Wire ChatResponse := ⟨source, ofSource?, Recast fields⟩

theorem respects : Respects wire.alters ofSource? :=
  Recast.respects rfl (by decide) fun r r' h => by
    rw [h.defaulted (some (.string "")) (respects_eq Source.string?),h.optional none,
      h.defaulted none (Each.respects ContentBlock.respects),
      h.defaulted none (Each.respects ToolCall.respects),h.optional none,
      h.defaulted (some Usage.zero.source) Usage.respects] <;>
      simp [fields,Source.string?,Usage.ofSource?_source]

theorem same (r : ChatResponse) : wire.alters r.source r.source := by
  simp only [source,List.append_assoc]
  exact Recast.refl (.keep rfl (.given r.content (.listed r.blocks (fun b _ => b.same)
    (.listed r.toolCalls (fun c _ => c.same) (.given r.finishReason (.keep r.usage.same .nil))))))

theorem ofSource?_source (r : ChatResponse) : ofSource? r.source = some r := by
  obtain ⟨record,hr,hget⟩ := (same r).written (show _ = fieldNames from rfl) (by decide)
  have hrecord : r.source.record? fieldNames = some record := hr
  simp only [List.lookup_cons,List.lookup_append,lookup_given,lookup_listed] at hget
  have hcontent : record.optional "content" Source.string? = some r.content :=
    Record.optional_string (by simp [hget])
  have hblocks : record.defaulted "blocks" [] (list? ContentBlock.ofSource?) = some r.blocks :=
    Record.defaulted_listed (by simp [hget]) fun b _ => b.ofSource?_source
  have hcalls : record.defaulted "tool_calls" [] (list? ToolCall.ofSource?) = some r.toolCalls :=
    Record.defaulted_listed (by simp [hget]) fun c _ => c.ofSource?_source
  have hreason : record.optional "finish_reason" Source.string? = some r.finishReason :=
    Record.optional_string (by simp [hget])
  have hid : record.defaulted "id" "" Source.string? = some r.id := by
    simp [Record.defaulted,hget,Source.string?]
  have husage : record.defaulted "usage" .zero Usage.ofSource? = some r.usage := by
    simp [Record.defaulted,hget,Usage.ofSource?_source]
  simp [ofSource?,hrecord,hid,hcontent,hblocks,hcalls,hreason,husage]

theorem within (r : ChatResponse) : r.source.Within 3 := by
  have hblock (b : ContentBlock) := b.within
  have hcall (c : ToolCall) := c.within
  have husage := r.usage.within.mono (show 1 ≤ 2 by decide)
  simp [source,or_imp,forall_and,hblock,hcall,husage]

theorem survives (r : ChatResponse) : wire.Survives r :=
  Wire.survives respects (same r) (ofSource?_source r) ((within r).mono (by decide))

end ChatResponse

namespace ChatRequest

def fields : List Field :=
  [.holding "messages" (Each Message.wire.alters), .plain "tools", .plain "timeout_ms"]

def wire : Wire ChatRequest := ⟨source, ofSource?, Recast fields⟩

theorem respects : Respects wire.alters ofSource? :=
  Recast.respects rfl (by decide) fun r r' h => by
    rw [h.required (Each.respects Message.respects),h.optional none,h.optional none] <;>
      simp [fields]

theorem same (r : ChatRequest) : wire.alters r.source r.source :=
  Recast.refl (.keep (Each.same fun m _ => m.same) (.given r.tools (.given_last r.timeoutMs)))

theorem ofSource?_source {r : ChatRequest} (h : ∀ m ∈ r.messages, m.timestamp.Plain) :
    ofSource? r.source = some r := by
  obtain ⟨record,hr,hget⟩ := (same r).written
    (show _ = ["messages","tools","timeout_ms"] from rfl) (by decide)
  have hrecord : r.source.record? ["messages","tools","timeout_ms"] = some record := hr
  simp only [List.lookup_cons,List.lookup_append,lookup_given] at hget
  have hmessages : record.required "messages" (list? Message.ofSource?) = some r.messages := by
    simpa [Record.required,hget] using
      list?_map fun m hm => Message.ofSource?_source (h m hm)
  have htools : record.optional "tools" Source.string? = some r.tools :=
    Record.optional_string (by simp [hget])
  have htimeout : record.optional "timeout_ms" uint64? = some r.timeoutMs :=
    Record.optional_uint64 (by simp [hget])
  simp [ofSource?,hrecord,hmessages,htools,htimeout]

theorem within (r : ChatRequest) : r.source.Within 5 := by
  have hmessage (m : Message) := m.within
  simp [source,or_imp,forall_and,hmessage]

theorem survives {r : ChatRequest} (h : ∀ m ∈ r.messages, m.timestamp.Plain) : wire.Survives r :=
  Wire.survives respects (same r) (ofSource?_source h) ((within r).mono (by decide))

end ChatRequest

namespace ToolDefinition

def fields : List Field := [.plain "name", .plain "description", .plain "parameters"]

def wire : Wire ToolDefinition := ⟨source, ofSource?, Recast fields⟩

theorem respects : Respects wire.alters ofSource? :=
  Recast.respects rfl (by decide) fun r r' h => by
    rw [h.plain,h.plain,h.plain] <;> simp [fields]

theorem same (d : ToolDefinition) : wire.alters d.source d.source :=
  Recast.refl (.keep rfl (.keep rfl (.keep rfl .nil)))

theorem ofSource?_source {d : ToolDefinition} (h : d.parameters.Sorted) :
    ofSource? d.source = some d := by
  simp [ofSource?,source,record?,Record.required,Record.get?,List.lookup_cons,Source.string?,
    h.value?_source]

theorem survives {d : ToolDefinition} (h : d.parameters.Sorted)
    (hwithin : d.source.Within nestingLimit) : wire.Survives d :=
  Wire.survives respects (same d) (ofSource?_source h) hwithin

end ToolDefinition

theorem emptySchema_eq :
    emptySchema = .object [("properties",.object []),("type",.string "object")] := rfl

theorem emptySchema_sorted : emptySchema.Sorted := by
  rw [emptySchema_eq]
  exact .object (List.pairwise_pair.mpr (by decide)) (by simp [Sorted.string,Sorted.object])

namespace RemoteToolInfo

def fields : List Field :=
  [.plain "name", .defaulting "description" (.string ""),
    .defaulting "input_schema" emptySchema.source]

def wire : Wire RemoteToolInfo := ⟨source, ofSource?, Recast fields⟩

theorem respects : Respects wire.alters ofSource? :=
  Recast.respects rfl (by decide) fun r r' h => by
    rw [h.plain,h.defaulted (some (.string "")) (respects_eq Source.string?),
      h.defaulted (some emptySchema.source) (respects_eq value?)] <;>
      simp [fields,Source.string?]
    rfl

theorem same (t : RemoteToolInfo) : wire.alters t.source t.source :=
  Recast.refl (.keep rfl (.keep rfl (.keep rfl .nil)))

theorem ofSource?_source {t : RemoteToolInfo} (h : t.inputSchema.Sorted) :
    ofSource? t.source = some t := by
  simp [ofSource?,source,record?,Record.required,Record.defaulted,Record.get?,List.lookup_cons,
    Source.string?,h.value?_source]

theorem survives {t : RemoteToolInfo} (h : t.inputSchema.Sorted)
    (hwithin : t.source.Within nestingLimit) : wire.Survives t :=
  Wire.survives respects (same t) (ofSource?_source h) hwithin

end RemoteToolInfo

end ReasonAct
