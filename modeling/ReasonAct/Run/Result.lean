import ReasonAct.Chat.Response
import ReasonAct.Error
set_option autoImplicit false

namespace ReasonAct

inductive RunStatus where
  | success
  | maxIterations
  | error
  /-- The session was closed while the run was under way. -/
  | aborted
  deriving DecidableEq, Repr, Inhabited

namespace RunStatus

def name : RunStatus → String
  | .success => "success"
  | .maxIterations => "max_iterations"
  | .error => "error"
  | .aborted => "aborted"

def all : List RunStatus := [.success, .maxIterations, .error, .aborted]

def ofName? (s : String) : Option RunStatus := all.find? (·.name = s)

def source (s : RunStatus) : Json.Source := .string s.name

def ofSource? (s : Json.Source) : Option RunStatus := s.name?.bind ofName?

end RunStatus

def defaultMaxIterations : UInt32 := 10

def maxIterationsResponse : String := "Maximum iterations reached without a final answer."

structure RunResult where
  status : RunStatus
  response : Option String
  /-- How often the model was called; the bound when it was used up. -/
  iterations : UInt32
  usage : Usage
  error : Option ErrorCode
  errorMessage : Option String
  /-- The turn of the user and all that followed it. -/
  messages : List Message
  deriving DecidableEq, Inhabited

namespace RunResult

def isSuccess (r : RunResult) : Bool := r.status = .success

def totalTokens (r : RunResult) : UInt64 := r.usage.total

open Json Source

def source (r : RunResult) : Source :=
  .object (("status", r.status.source) :: (given "response" .string r.response ++
    ("iterations", .uint32 r.iterations) :: ("usage", r.usage.source) ::
    (given "error" ErrorCode.source r.error ++ given "error_message" .string r.errorMessage ++
    [("messages", .array (r.messages.map Message.source))])))

def fieldNames : List String :=
  ["status", "response", "iterations", "usage", "error", "error_message", "messages"]

def ofSource? (s : Source) : Option RunResult := do
  let r ← s.record? fieldNames
  pure ⟨← r.required "status" RunStatus.ofSource?, ← r.optional "response" string?,
    ← r.required "iterations" uint32?, ← r.required "usage" Usage.ofSource?,
    ← r.optional "error" ErrorCode.ofSource?, ← r.optional "error_message" string?,
    ← r.defaulted "messages" [] (list? Message.ofSource?)⟩

end RunResult
end ReasonAct
