import ReasonAct.Proofs.Config.Wire
import ReasonAct.Proofs.Run.Wire
set_option autoImplicit false

namespace ReasonAct.Json.Wire

open Source

/-- Moments are of the years 1 to 9999 and no leap seconds. JSON inside a value has its keys in
order, nests no deeper than is read, and its numbers are read as they are written. -/
theorem typed_values_survive :
    (∀ m : Message, m.timestamp.Plain → Message.wire.Survives m) ∧
    (∀ b : ContentBlock, ContentBlock.wire.Survives b) ∧
    (∀ c : ToolCall, ToolCall.wire.Survives c) ∧
    (∀ r : ToolResult, ToolResult.wire.Survives r) ∧
    (∀ u : Usage, Usage.wire.Survives u) ∧
    (∀ r : ChatResponse, ChatResponse.wire.Survives r) ∧
    (∀ r : ChatRequest, (∀ m ∈ r.messages, m.timestamp.Plain) → ChatRequest.wire.Survives r) ∧
    (∀ r : RunResult, (∀ m ∈ r.messages, m.timestamp.Plain) → RunResult.wire.Survives r) ∧
    (∀ e : StreamEvent, StreamEvent.wire.Survives e) ∧
    (∀ e : Event, e.timestamp.Plain → Event.wire.Survives e) ∧
    (∀ d : ToolDefinition, d.parameters.Sorted → d.source.Within nestingLimit →
      ToolDefinition.wire.Survives d) ∧
    (∀ t : RemoteToolInfo, t.inputSchema.Sorted → t.source.Within nestingLimit →
      RemoteToolInfo.wire.Survives t) ∧
    ∀ c : Config, Config.wire.Survives c :=
  ⟨fun _ => Message.survives,ContentBlock.survives,ToolCall.survives,ToolResult.survives,
    Usage.survives,ChatResponse.survives,fun _ => ChatRequest.survives,fun _ => RunResult.survives,
    StreamEvent.survives,fun _ => Event.survives,fun _ => ToolDefinition.survives,
    fun _ => RemoteToolInfo.survives,Config.survives⟩

def wireMessage : Message := ⟨.tool, none, [.toolResult "7" "[]" false], some "7", [], .epoch⟩

/-- The fields of the message in reverse, after one more. In its block the kind comes last, and the
mark of an error is left out. -/
def wireSource : Source := .object
  [("extra", .array [.null, .object []]), ("timestamp", .instant .epoch),
    ("tool_call_id", .string "7"),
    ("blocks", .array [.object
      [("content", .string "[]"), ("tool_use_id", .string "7"), ("type", .string "tool_result")]]),
    ("role", .string "tool")]

theorem wireSource_altered : Message.wire.alters wireMessage.source wireSource := by
  have hblock : ContentBlock.wire.alters (ContentBlock.toolResult "7" "[]" false).source
      (.object [("content",.string "[]"),("tool_use_id",.string "7"),
        ("type",.string "tool_result")]) :=
    .intro (.keep rfl (.keep rfl (.leave rfl .nil)))
      (show ∀ f ∈ ([] : List (String × Source)), _ by simp) (List.reverse_perm _).symm
  exact .intro (.keep rfl (.absent (.keep (.intro (.cons hblock .nil)) (.keep rfl (.absent
    (.keep rfl .nil))))))
    (show ∀ f ∈ [("extra",Source.array [.null,.object []])], _ by simp [Field.names,Message.fields])
    (List.reverse_perm _).symm

theorem typed_values_survive_altered :
    Message.wire.decode? wireSource.text = some wireMessage ∧
      RemoteToolInfo.wire.decode? "\x7b\"name\":\"clock\"\x7d" =
        some ⟨"clock", "", emptySchema⟩ := by
  obtain ⟨hmessages,_,_,_,_,_,_,_,_,_,_,hremote,_⟩ := typed_values_survive
  have hplain : wireMessage.timestamp.Plain := by constructor <;> decide
  have hnamed : RemoteToolInfo.wire.alters (RemoteToolInfo.source ⟨"clock","",emptySchema⟩)
      (.object [("name",.string "clock")]) :=
    .intro (.keep rfl (.leave rfl (.leave rfl .nil)))
      (show ∀ f ∈ ([] : List (String × Source)), _ by simp) (.refl _)
  have htext : "\x7b\"name\":\"clock\"\x7d" = (Source.object [("name",.string "clock")]).text := by
    decide +kernel
  have hdepth : (RemoteToolInfo.source ⟨"clock","",emptySchema⟩).Within nestingLimit := by
    simp [RemoteToolInfo.source,emptySchema_eq,Json.source,sourceMembers,nestingLimit]
  rw [htext]
  exact ⟨(hmessages wireMessage hplain).rewritten wireSource wireSource_altered
      (by simp [wireSource,nestingLimit]),
    (hremote ⟨"clock","",emptySchema⟩ emptySchema_sorted hdepth).rewritten _ hnamed
      (by simp [nestingLimit])⟩

end ReasonAct.Json.Wire
