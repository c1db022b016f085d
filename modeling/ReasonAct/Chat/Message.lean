import ReasonAct.Chat.Block
set_option autoImplicit false

namespace ReasonAct

structure Message where
  role : Role
  content : Option String
  blocks : List ContentBlock
  toolCallId : Option String
  toolCalls : List ToolCall
  timestamp : Instant
  deriving DecidableEq, Inhabited

namespace Message

def plain (role : Role) (content : Option String) (now : Instant) : Message :=
  ⟨role, content, [], none, [], now⟩

def system (content : String) (now : Instant) : Message := plain .system (some content) now
def user (content : String) (now : Instant) : Message := plain .user (some content) now
def assistant (content : String) (now : Instant) : Message := plain .assistant (some content) now

def assistantToolCalls (content : Option String) (calls : List ToolCall) (now : Instant) :
    Message :=
  { plain .assistant content now with toolCalls := calls }

def toolResult (toolCallId output : String) (now : Instant) : Message :=
  { plain .tool (some output) now with toolCallId := some toolCallId }

/-- The message that answers a call, with the result once more as a block. -/
def ofResult (r : ToolResult) (now : Instant) : Message :=
  { toolResult r.toolCallId r.output now with
    blocks := [.toolResult r.toolCallId r.output r.isError] }

def text (m : Message) : Option String := m.content.or (joinedText m.blocks)

def hasToolCalls (m : Message) : Bool := !m.toolCalls.isEmpty

open Json Source

def source (m : Message) : Source :=
  .object (("role", m.role.source) :: (given "content" .string m.content ++
    listed "blocks" ContentBlock.source m.blocks ++ given "tool_call_id" .string m.toolCallId ++
    listed "tool_calls" ToolCall.source m.toolCalls ++ [("timestamp", .instant m.timestamp)]))

def fieldNames : List String :=
  ["role", "content", "blocks", "tool_call_id", "tool_calls", "timestamp"]

def ofSource? (s : Source) : Option Message := do
  let r ← s.record? fieldNames
  pure ⟨← r.required "role" Role.ofSource?, ← r.optional "content" string?,
    ← r.defaulted "blocks" [] (list? ContentBlock.ofSource?), ← r.optional "tool_call_id" string?,
    ← r.defaulted "tool_calls" [] (list? ToolCall.ofSource?), ← r.required "timestamp" instant?⟩

end Message
end ReasonAct
