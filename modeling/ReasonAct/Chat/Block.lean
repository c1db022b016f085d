import ReasonAct.Json.Record
set_option autoImplicit false

namespace ReasonAct

inductive Role where
  | system
  | user
  | assistant
  | tool
  deriving DecidableEq, Repr, Inhabited

namespace Role

def name : Role → String
  | .system => "system"
  | .user => "user"
  | .assistant => "assistant"
  | .tool => "tool"

def all : List Role := [.system, .user, .assistant, .tool]

def ofName? (s : String) : Option Role := all.find? (·.name = s)

def source (r : Role) : Json.Source := .string r.name

def ofSource? (s : Json.Source) : Option Role := s.name?.bind ofName?

end Role

structure ToolCall where
  id : String
  name : String
  arguments : String
  deriving DecidableEq, Repr, Inhabited

inductive ContentBlock where
  | text (text : String)
  /-- The signature goes back to the model byte for byte. -/
  | thinking (thinking : String) (signature : Option String)
  | redactedThinking (data : String)
  | reasoning (text : String)
  | toolUse (id name input : String)
  | toolResult (toolUseId content : String) (isError : Bool)
  deriving DecidableEq, Repr, Inhabited

namespace ContentBlock

def kind : ContentBlock → String
  | .text _ => "text"
  | .thinking _ _ => "thinking"
  | .redactedThinking _ => "redacted_thinking"
  | .reasoning _ => "reasoning"
  | .toolUse _ _ _ => "tool_use"
  | .toolResult _ _ _ => "tool_result"

def text? : ContentBlock → Option String
  | .text t => some t
  | _ => none

def toolCall? : ContentBlock → Option ToolCall
  | .toolUse id name input => some ⟨id, name, input⟩
  | _ => none

open Json Source

def source (b : ContentBlock) : Source :=
  .object (("type", .string b.kind) :: match b with
    | .text t => [("text", .string t)]
    | .thinking t signature => ("thinking", .string t) :: given "signature" .string signature
    | .redactedThinking data => [("data", .string data)]
    | .reasoning t => [("text", .string t)]
    | .toolUse id name input =>
      [("id", .string id), ("name", .string name), ("input", .string input)]
    | .toolResult id content isError =>
      [("tool_use_id", .string id), ("content", .string content), ("is_error", .bool isError)])

def ofKind? (kind : String) (s : Source) : Option ContentBlock :=
  match kind with
  | "text" => do
    let r ← s.record? ["text"]
    pure (.text (← r.required "text" string?))
  | "thinking" => do
    let r ← s.record? ["thinking", "signature"]
    pure (.thinking (← r.required "thinking" string?) (← r.optional "signature" string?))
  | "redacted_thinking" => do
    let r ← s.record? ["data"]
    pure (.redactedThinking (← r.required "data" string?))
  | "reasoning" => do
    let r ← s.record? ["text"]
    pure (.reasoning (← r.required "text" string?))
  | "tool_use" => do
    let r ← s.record? ["id", "name", "input"]
    pure (.toolUse (← r.required "id" string?) (← r.required "name" string?)
      (← r.required "input" string?))
  | "tool_result" => do
    let r ← s.record? ["tool_use_id", "content", "is_error"]
    pure (.toolResult (← r.required "tool_use_id" string?) (← r.required "content" string?)
      (← r.defaulted "is_error" false bool?))
  | _ => none

def ofSource? (s : Source) : Option ContentBlock := s.tagged?.bind fun (kind, s) => ofKind? kind s

end ContentBlock

def joinedText (blocks : List ContentBlock) : Option String :=
  match blocks.filterMap ContentBlock.text? with
  | [] => none
  | ts => some (String.join ts)

namespace ToolCall

open Json Source

def source (c : ToolCall) : Source :=
  .object [("id", .string c.id), ("name", .string c.name), ("arguments", .string c.arguments)]

def ofSource? (s : Source) : Option ToolCall := do
  let r ← s.record? ["id", "name", "arguments"]
  pure ⟨← r.required "id" string?, ← r.required "name" string?, ← r.required "arguments" string?⟩

end ToolCall

structure ToolResult where
  toolCallId : String
  output : String
  isError : Bool
  deriving DecidableEq, Repr, Inhabited

/-- Whether an output is a JSON object with a member `error`. -/
def isErrorPayload (output : String) : Bool :=
  match Json.parse? output with
  | some j => (j.member? "error").isSome
  | none => false

def errorPayload (message : String) : String :=
  (Json.ofFields [("error", .string message)]).text

namespace ToolResult

def ofOutput (toolCallId output : String) : ToolResult :=
  ⟨toolCallId, output, isErrorPayload output⟩

open Json Source

def source (r : ToolResult) : Source :=
  .object [("tool_call_id", .string r.toolCallId), ("output", .string r.output),
    ("is_error", .bool r.isError)]

def ofSource? (s : Source) : Option ToolResult := do
  let r ← s.record? ["tool_call_id", "output", "is_error"]
  pure ⟨← r.required "tool_call_id" string?, ← r.required "output" string?,
    ← r.defaulted "is_error" false bool?⟩

end ToolResult

end ReasonAct
