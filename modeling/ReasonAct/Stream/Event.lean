import ReasonAct.Run.Result
set_option autoImplicit false

namespace ReasonAct

inductive StreamEvent where
  | delta (content : String)
  | thinking (content : String)
  | toolCall (id name arguments : String)
  | toolResult (id output : String) (isError : Bool)
  | done (status : RunStatus) (iterations : UInt32) (usage : Usage)
  | error (message : String)
  deriving DecidableEq, Inhabited

namespace StreamEvent

def kind : StreamEvent → String
  | .delta _ => "delta"
  | .thinking _ => "thinking"
  | .toolCall _ _ _ => "tool_call"
  | .toolResult _ _ _ => "tool_result"
  | .done _ _ _ => "done"
  | .error _ => "error"

def isTerminal : StreamEvent → Bool
  | .done _ _ _ => true
  | .error _ => true
  | _ => false

open Json Source

def source (e : StreamEvent) : Source :=
  .object (("type", .string e.kind) :: match e with
    | .delta content | .thinking content => [("content", .string content)]
    | .toolCall id name arguments =>
      [("id", .string id), ("name", .string name), ("arguments", .string arguments)]
    | .toolResult id output isError =>
      [("id", .string id), ("output", .string output), ("is_error", .bool isError)]
    | .done status iterations usage =>
      [("status", status.source), ("iterations", .uint32 iterations), ("usage", usage.source)]
    | .error message => [("message", .string message)])

def ofKind? (kind : String) (s : Source) : Option StreamEvent :=
  match kind with
  | "delta" => do
    let r ← s.record? ["content"]
    pure (.delta (← r.required "content" string?))
  | "thinking" => do
    let r ← s.record? ["content"]
    pure (.thinking (← r.required "content" string?))
  | "tool_call" => do
    let r ← s.record? ["id", "name", "arguments"]
    pure (.toolCall (← r.required "id" string?) (← r.required "name" string?)
      (← r.required "arguments" string?))
  | "tool_result" => do
    let r ← s.record? ["id", "output", "is_error"]
    pure (.toolResult (← r.required "id" string?) (← r.required "output" string?)
      (← r.required "is_error" bool?))
  | "done" => do
    let r ← s.record? ["status", "iterations", "usage"]
    pure (.done (← r.required "status" fun s => s.innerName?.bind RunStatus.ofName?)
      (← r.required "iterations" uint32?) (← r.required "usage" Usage.ofSource?))
  | "error" => do
    let r ← s.record? ["message"]
    pure (.error (← r.required "message" string?))
  | _ => none

def ofSource? (s : Source) : Option StreamEvent := s.tagged?.bind fun (kind, s) => ofKind? kind s

end StreamEvent
end ReasonAct
