import ReasonAct.Run.Loop
set_option autoImplicit false

namespace ReasonAct

def ToolCall.block (c : ToolCall) : ContentBlock := .toolUse c.id c.name c.arguments

theorem map_block_toolCalls (bs : List ContentBlock) :
    (bs.filterMap ContentBlock.toolCall?).map ToolCall.block =
      bs.filter fun b => b.kind = "tool_use" := by
  have hguard : (fun b : ContentBlock => b.toolCall?.map ToolCall.block) =
      Option.guard fun b => b.kind = "tool_use" := by
    funext b
    cases b <;> rfl
  rw [List.map_filterMap,hguard,List.filterMap_eq_filter]

namespace ChatResponse

variable (r : ChatResponse) (now later : Instant)

theorem calls_listed (h : r.toolCalls ≠ []) : r.calls = r.toolCalls := by
  rw [calls,if_neg (by simpa using h)]

theorem calls_unlisted (h : r.toolCalls = []) :
    r.calls.map ToolCall.block = r.blocks.filter fun b => b.kind = "tool_use" := by
  rw [calls,if_pos (by simp [h]),map_block_toolCalls]

theorem hasToolCalls_iff : r.hasToolCalls = true ↔ r.calls ≠ [] := by
  rw [hasToolCalls_eq]
  simp

theorem calls_ofMessage : (ofMessage (r.message now)).calls = r.calls := by
  by_cases h : r.calls = []
  · have hlisted : r.toolCalls = [] :=
      Classical.byContradiction fun hne => hne ((r.calls_listed hne).symm.trans h)
    calc (ofMessage (r.message now)).calls
        = r.blocks.filterMap ContentBlock.toolCall? := if_pos (List.isEmpty_iff.mpr h)
      _ = r.calls := (if_pos (List.isEmpty_iff.mpr hlisted)).symm
  · exact calls_listed _ h

theorem hasToolCalls_ofMessage : (ofMessage (r.message now)).hasToolCalls = r.hasToolCalls := by
  rw [hasToolCalls_eq,hasToolCalls_eq,calls_ofMessage]

theorem isStop_ofMessage_iff (m : Message) : (ofMessage m).isStop = true ↔ m.toolCalls = [] := by
  cases h : m.toolCalls <;> simp [ofMessage,isStop,h]

/-- Only the time at which it was said can change on the way. -/
theorem message_ofMessage :
    (ofMessage (r.message now)).message later = { r.message now with timestamp := later } := by
  have hcalls := r.calls_ofMessage now
  rw [message,hcalls]
  rfl

end ChatResponse

namespace Run

/-- Whether the loop takes a response for a turn of tool calls. -/
def isToolTurn (r : ChatResponse) : Bool := !isFinal r && r.hasToolCalls

theorem settle_of_not_toolTurn {σ : Type} (c : Collaborators σ)
    (answer : ToolCall → σ → Except Error String × σ) (a : Profile)
    (next : Progress → σ → RunResult × σ) {r : ChatResponse} (h : isToolTurn r = false)
    (p : Progress) (s : σ) :
    settle { c with answer := answer } a next r p s = settle c a next r p s := by
  unfold settle
  cases hf : isFinal r with
  | true => rfl
  | false =>
    have hcalls : r.hasToolCalls = false := by simpa [isToolTurn,hf] using h
    simp only [hcalls]
    rfl

end Run

namespace ChatResponse

/-- What a model said is the same as a response, as a message and as the response of that message,
and so is what it calls. A turn of tool calls has a call, and any other turn asks no tool. -/
theorem conversions_faithful (r : ChatResponse) (now later : Instant) :
    let m := r.message now
    let b := ofMessage m
    (m.content = r.content ∧ b.content = r.content ∧ m.blocks = r.blocks ∧ b.blocks = r.blocks) ∧
    (m.text = r.text ∧ b.text = r.text) ∧
    (m.hasToolCalls = r.hasToolCalls ∧ b.hasToolCalls = r.hasToolCalls ∧
      (r.hasToolCalls = true ↔ m.toolCalls ≠ [])) ∧
    (Run.isToolTurn r = true → m.toolCalls ≠ []) ∧
    (Run.isToolTurn r = false → ∀ (σ : Type) (c : Collaborators σ) answer a next p s,
      Run.settle { c with answer := answer } a next r p s = Run.settle c a next r p s) ∧
    (r.toolCalls ≠ [] → m.toolCalls = r.toolCalls) ∧
    (r.toolCalls = [] →
      m.toolCalls.map ToolCall.block = r.blocks.filter fun x => x.kind = "tool_use") ∧
    (b.isStop = true ↔ m.toolCalls = []) ∧
    b.message later = { m with timestamp := later } ∧ ofMessage (b.message later) = b := by
  intro m b
  refine ⟨⟨rfl,rfl,rfl,rfl⟩,⟨rfl,rfl⟩,⟨r.hasToolCalls_eq.symm,r.hasToolCalls_ofMessage now,
    r.hasToolCalls_iff⟩,?_,?_,r.calls_listed,r.calls_unlisted,isStop_ofMessage_iff m,
    r.message_ofMessage now later,?_⟩
  · intro h
    exact r.hasToolCalls_iff.mp (Bool.and_eq_true_iff.mp h).2
  · intro h σ c answer a next p s
    exact Run.settle_of_not_toolTurn c answer a next h p s
  · rw [r.message_ofMessage now later]
    rfl

def mixed : ChatResponse :=
  { empty with blocks := [.thinking "plan" (some "sig"), .toolUse "t1" "echo" "{}",
      .text "And then:", .toolUse "t2" "clock" ""] }

theorem conversions_faithful_mixed :
    Run.isToolTurn mixed = true ∧ (mixed.message default).toolCalls ≠ [] ∧
      (mixed.message default).toolCalls.map ToolCall.block =
        [.toolUse "t1" "echo" "{}", .toolUse "t2" "clock" ""] := by
  obtain ⟨-,-,-,hturn,-,-,hblocks,-⟩ := conversions_faithful mixed default default
  exact ⟨rfl,hturn rfl,(hblocks rfl).trans (by decide)⟩

end ChatResponse
end ReasonAct
