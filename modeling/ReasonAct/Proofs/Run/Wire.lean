import ReasonAct.Event.Basic
import ReasonAct.Proofs.Chat.Wire
import ReasonAct.Stream.Event
set_option autoImplicit false

namespace ReasonAct

open Json Json.Source

@[simp] theorem RunStatus.ofSource?_source (s : RunStatus) : ofSource? s.source = some s := by
  cases s <;> rfl

@[simp] theorem RunStatus.within (n : Nat) (s : RunStatus) : s.source.Within n := .string n s.name

theorem ErrorCode.ofSource?_source (c : ErrorCode) : ofSource? c.source = some c := by
  cases c <;> rfl

@[simp] theorem ErrorCode.within (n : Nat) (c : ErrorCode) : c.source.Within n := .string n c.name

namespace RunResult

def fields : List Field :=
  [.plain "status", .plain "response", .plain "iterations", .holding "usage" Usage.wire.alters,
    .plain "error", .plain "error_message",
    ⟨"messages", Each Message.wire.alters, some (.array [])⟩]

def wire : Wire RunResult := ⟨source, ofSource?, Recast fields⟩

theorem respects : Respects wire.alters ofSource? :=
  Recast.respects rfl (by decide) fun r r' h => by
    rw [h.plain,h.optional none,h.plain,h.required Usage.respects,h.optional none,h.optional none,
      h.defaulted (some (.array [])) (Each.respects Message.respects)] <;> simp [fields,list?]

theorem same (r : RunResult) : wire.alters r.source r.source := by
  simp only [source,List.append_assoc]
  exact Recast.refl (.keep rfl (.given r.response (.keep rfl (.keep r.usage.same
    (.given r.error (.given r.errorMessage (.keep (Each.same fun m _ => m.same) .nil)))))))

theorem ofSource?_source {r : RunResult} (h : ∀ m ∈ r.messages, m.timestamp.Plain) :
    ofSource? r.source = some r := by
  obtain ⟨record,hr,hget⟩ := (same r).written (show _ = fieldNames from rfl) (by decide)
  have hrecord : r.source.record? fieldNames = some record := hr
  simp only [List.lookup_cons,List.lookup_append,lookup_given] at hget
  have hresponse : record.optional "response" Source.string? = some r.response :=
    Record.optional_string (by simp [hget])
  have herror : record.optional "error" ErrorCode.ofSource? = some r.error :=
    Record.optional_given (show _ = r.error.map ErrorCode.source by simp [hget])
      (by simp [ErrorCode.source]) ErrorCode.ofSource?_source
  have hmessage : record.optional "error_message" Source.string? = some r.errorMessage :=
    Record.optional_string (by simp [hget])
  have hmessages : record.defaulted "messages" [] (list? Message.ofSource?) = some r.messages := by
    simpa [Record.defaulted,hget] using
      list?_map fun m hm => Message.ofSource?_source (h m hm)
  simp [ofSource?,hrecord,hresponse,herror,hmessage,hmessages,Record.required,hget,
    Usage.ofSource?_source]

theorem within (r : RunResult) : r.source.Within 5 := by
  have husage := r.usage.within.mono (show 1 ≤ 4 by decide)
  have hmessage (m : Message) := m.within
  simp [source,or_imp,forall_and,husage,hmessage]

theorem survives {r : RunResult} (h : ∀ m ∈ r.messages, m.timestamp.Plain) : wire.Survives r :=
  Wire.survives respects (same r) (ofSource?_source h) ((within r).mono (by decide))

end RunResult

namespace StreamEvent

def fields : String → List Field
  | "delta" => [.plain "content"]
  | "thinking" => [.plain "content"]
  | "tool_call" => [.plain "id", .plain "name", .plain "arguments"]
  | "tool_result" => [.plain "id", .plain "output", .plain "is_error"]
  | "done" => [.plain "status", .plain "iterations", .holding "usage" Usage.wire.alters]
  | "error" => [.plain "message"]
  | _ => []

def wire : Wire StreamEvent := ⟨source, ofSource?, Retagged fields⟩

theorem type_not_mem (kind : String) : "type" ∉ Field.names (fields kind) := by
  unfold fields
  split <;> decide

theorem respects_kind (kind : String) : Respects (Recast (fields kind)) (ofKind? kind) := by
  unfold fields
  split
  · exact Recast.respects rfl (by decide) fun r r' h => by
      rw [h.plain (by simp)]
  · exact Recast.respects rfl (by decide) fun r r' h => by
      rw [h.plain (by simp)]
  · exact Recast.respects rfl (by decide) fun r r' h => by
      rw [h.plain,h.plain,h.plain] <;> simp
  · exact Recast.respects rfl (by decide) fun r r' h => by
      rw [h.plain,h.plain,h.plain] <;> simp
  · exact Recast.respects rfl (by decide) fun r r' h => by
      rw [h.plain,h.plain,h.required Usage.respects] <;> simp
  · exact Recast.respects rfl (by decide) fun r r' h => by
      rw [h.plain (by simp)]
  · intro s s' _ _ _
    unfold ofKind?
    split <;> simp_all

theorem respects : Respects wire.alters ofSource? := Retagged.respects type_not_mem respects_kind

theorem same (e : StreamEvent) : wire.alters e.source e.source := by
  cases e with
  | delta _ => exact Retagged.refl (.keep rfl .nil)
  | thinking _ => exact Retagged.refl (.keep rfl .nil)
  | toolCall _ _ _ => exact Retagged.refl (.keep rfl (.keep rfl (.keep rfl .nil)))
  | toolResult _ _ _ => exact Retagged.refl (.keep rfl (.keep rfl (.keep rfl .nil)))
  | done _ _ usage => exact Retagged.refl (.keep rfl (.keep rfl (.keep usage.same .nil)))
  | error _ => exact Retagged.refl (.keep rfl .nil)

theorem innerName?_source (s : RunStatus) :
    s.source.innerName?.bind RunStatus.ofName? = some s := by cases s <;> rfl

theorem ofSource?_source (e : StreamEvent) : ofSource? e.source = some e := by
  cases e with
  | done status iterations usage =>
    have hread := (usage.within.mono (show 1 ≤ 2 by decide)).readable
    simp [ofSource?,source,kind,tagged?_written,hread,(RunStatus.within 0 status).readable,ofKind?,
      record?,Record.required,Record.get?,List.lookup_cons,innerName?_source,Usage.ofSource?_source,
      (within_uint32 0 iterations).readable]
  | _ => simp [ofSource?,source,kind,tagged?_written,ofKind?,record?,Record.required,Record.get?,
      List.lookup_cons,Source.string?,bool?]

theorem within (e : StreamEvent) : e.source.Within 2 := by
  cases e with
  | done status iterations usage => simp [source,usage.within]
  | _ => simp [source]

theorem survives (e : StreamEvent) : wire.Survives e :=
  Wire.survives respects (same e) (ofSource?_source e) ((within e).mono (by decide))

end StreamEvent

namespace Event

def fields : String → List Field
  | "RunStarted" => [.plain "agent", .plain "session_id", .plain "timestamp"]
  | "LlmResponded" =>
    [.plain "agent", .plain "iteration", .defaulting "finish_reason" .null, .plain "tokens_used",
      .plain "timestamp"]
  | "ToolExecuted" =>
    [.plain "tool_name", .plain "is_error", .plain "duration_ms", .plain "timestamp"]
  | "RunFinished" =>
    [.plain "agent", .plain "status", .plain "iterations", .plain "total_tokens",
      .plain "timestamp"]
  | "SessionClosed" =>
    [.plain "session_id", .plain "agents", .plain "registries", .plain "protocol_clients",
      .plain "timestamp"]
  | _ => []

def wire : Wire Event := ⟨source, ofSource?, Rewrapped fields⟩

theorem respects_kind (kind : String) : Respects (Recast (fields kind)) (ofKind? kind) := by
  unfold fields
  split
  · exact Recast.respects rfl (by decide) fun r r' h => by
      rw [h.plain,h.plain,h.plain] <;> simp
  · exact Recast.respects rfl (by decide) fun r r' h => by
      rw [h.plain,h.plain,h.nullable (some .null),h.plain,h.plain] <;> simp
  · exact Recast.respects rfl (by decide) fun r r' h => by
      rw [h.plain,h.plain,h.plain,h.plain] <;> simp
  · exact Recast.respects rfl (by decide) fun r r' h => by
      rw [h.plain,h.plain,h.plain,h.plain,h.plain] <;> simp
  · exact Recast.respects rfl (by decide) fun r r' h => by
      rw [h.plain,h.plain,h.plain,h.plain,h.plain] <;> simp
  · intro s s' _ _ _
    unfold ofKind?
    split <;> simp_all

theorem respects : Respects wire.alters ofSource? :=
  Rewrapped.respects (fun _ _ => rfl) respects_kind

theorem same (e : Event) : wire.alters e.source e.source := by
  cases e with
  | runStarted _ _ _ => exact .intro (Recast.refl (.keep rfl (.keep rfl (.keep rfl .nil))))
  | llmResponded _ _ _ _ _ =>
    exact .intro (Recast.refl (.keep rfl (.keep rfl (.keep rfl (.keep rfl (.keep rfl .nil))))))
  | toolExecuted _ _ _ _ =>
    exact .intro (Recast.refl (.keep rfl (.keep rfl (.keep rfl (.keep rfl .nil)))))
  | runFinished _ _ _ _ _ =>
    exact .intro (Recast.refl (.keep rfl (.keep rfl (.keep rfl (.keep rfl (.keep rfl .nil))))))
  | sessionClosed _ _ _ _ _ =>
    exact .intro (Recast.refl (.keep rfl (.keep rfl (.keep rfl (.keep rfl (.keep rfl .nil))))))

def timestamp : Event → Instant
  | .runStarted _ _ t | .llmResponded _ _ _ _ t | .toolExecuted _ _ _ t | .runFinished _ _ _ _ t
  | .sessionClosed _ _ _ _ t => t

theorem ofSource?_source {e : Event} (h : e.timestamp.Plain) : ofSource? e.source = some e := by
  have htime := instant?_instant h
  cases e with
  | llmResponded agent iteration reason tokens t =>
    cases reason <;> simp_all [ofSource?,source,ofKind?,record?,Record.required,Record.nullable,
      Record.optional,Record.get?,List.lookup_cons,Source.string?,timestamp]
  | _ => simp_all [ofSource?,source,ofKind?,record?,Record.required,Record.get?,List.lookup_cons,
      Source.string?,bool?,timestamp]

theorem within (e : Event) : e.source.Within 2 := by
  cases e with
  | llmResponded _ _ reason _ _ => cases reason <;> simp [source]
  | _ => simp [source]

theorem survives {e : Event} (h : e.timestamp.Plain) : wire.Survives e :=
  Wire.survives respects (same e) (ofSource?_source h) ((within e).mono (by decide))

end Event
end ReasonAct
