import ReasonAct.Chat.Message
import ReasonAct.Chat.Usage
set_option autoImplicit false

namespace ReasonAct

structure ChatResponse where
  id : String
  content : Option String
  blocks : List ContentBlock
  toolCalls : List ToolCall
  finishReason : Option String
  usage : Usage
  deriving DecidableEq, Inhabited

namespace ChatResponse

def empty : ChatResponse := ⟨"", none, [], [], none, .zero⟩

def stop (content : String) : ChatResponse :=
  { empty with content := some content, finishReason := some "stop" }

def toolUse (calls : List ToolCall) : ChatResponse :=
  { empty with toolCalls := calls, finishReason := some "tool_calls" }

def isStop (r : ChatResponse) : Bool := r.finishReason = some "stop"

def text (r : ChatResponse) : Option String := r.content.or (joinedText r.blocks)

def hasToolCalls (r : ChatResponse) : Bool :=
  !r.toolCalls.isEmpty || r.blocks.any (·.toolCall?.isSome)

/-- Calls listed on their own come before calls that stand among the blocks. -/
def calls (r : ChatResponse) : List ToolCall :=
  if r.toolCalls.isEmpty then r.blocks.filterMap ContentBlock.toolCall? else r.toolCalls

theorem hasToolCalls_eq (r : ChatResponse) : r.hasToolCalls = !r.calls.isEmpty := by
  unfold hasToolCalls calls
  cases h : r.toolCalls with
  | cons call calls => simp
  | nil =>
    simp only [List.isEmpty_nil,Bool.not_true,Bool.false_or,if_true]
    rw [Bool.eq_iff_iff]
    simp [List.filterMap_eq_nil_iff,Option.isSome_iff_ne_none]

def message (r : ChatResponse) (now : Instant) : Message :=
  { Message.assistantToolCalls r.content r.calls now with blocks := r.blocks }

def ofMessage (m : Message) : ChatResponse where
  id := ""
  content := m.content
  blocks := m.blocks
  toolCalls := m.toolCalls
  finishReason := some (if m.toolCalls.isEmpty then "stop" else "tool_calls")
  usage := .zero

open Json Source

def source (r : ChatResponse) : Source :=
  .object (("id", .string r.id) :: (given "content" .string r.content ++
    listed "blocks" ContentBlock.source r.blocks ++
    listed "tool_calls" ToolCall.source r.toolCalls ++
    given "finish_reason" .string r.finishReason ++ [("usage", r.usage.source)]))

def fieldNames : List String :=
  ["id", "content", "blocks", "tool_calls", "finish_reason", "usage"]

def ofSource? (s : Source) : Option ChatResponse := do
  let r ← s.record? fieldNames
  pure ⟨← r.defaulted "id" "" string?, ← r.optional "content" string?,
    ← r.defaulted "blocks" [] (list? ContentBlock.ofSource?),
    ← r.defaulted "tool_calls" [] (list? ToolCall.ofSource?),
    ← r.optional "finish_reason" string?, ← r.defaulted "usage" .zero Usage.ofSource?⟩

end ChatResponse
end ReasonAct
