import ReasonAct.Proofs.Chat.Payload
import ReasonAct.Proofs.World.Closed
set_option autoImplicit false

namespace ReasonAct.World

/-- The text tells of a failure: it decodes to the message, and it is known for an error. -/
structure Reports (output message : String) : Prop where
  decoded : Json.parse? output = some (.object [("error",.string message)])
  known : isErrorPayload output = true
  solid : Text.blank output = false

/-- How the outcome of a call is put into a text. There is none when no tool has the name. -/
inductive Conveys (name : String) : Option (Except ToolError String) → String → Prop
  | unknown {output : String} (h : Reports output ("Tool '" ++ name ++ "' not found")) :
      Conveys name none output
  | failed {output : String} {e : ToolError} (h : Reports output e.message) :
      Conveys name (some (.error e)) output
  | silent {output text : String} (blank : Text.blank text = true)
      (h : Reports output ("Tool '" ++ name ++ "' returned no output")) :
      Conveys name (some (.ok text)) output
  | spoken {output : String} (solid : Text.blank output = false) :
      Conveys name (some (.ok output)) output

theorem reports_errorPayload (message : String) : Reports (errorPayload message) message :=
  ⟨parse?_errorPayload message,isErrorPayload_errorPayload message,errorPayload_not_blank message⟩

theorem Conveys.solid {name output : String} {outcome : Option (Except ToolError String)}
    (h : Conveys name outcome output) : Text.blank output = false := by
  cases h with
  | unknown h | failed h | silent _ h => exact h.solid
  | spoken hsolid => exact hsolid

section Call

variable (code : Code) (id : Nat) (name arguments : String) (ctx : ToolContext) (w : World)

def runTool : Option (Except ToolError String × World) :=
  (w.handler? id name).map fun tool => code.execute tool ctx arguments w

theorem handler?_eq_none_iff : w.handler? id name = none ↔ name ∉ w.toolNames id := by
  simp only [handler?,toolNames,Option.map_eq_none_iff,List.find?_eq_none,List.mem_filterMap,
    isNamed,decide_eq_true_eq,not_exists,not_and]

variable {w id}

end Call

/-- The result of a call is the output, under the id of the call. -/
structure Answers (c : ToolCall) (output : String) (result : ToolResult) : Prop where
  id : result.toolCallId = c.id
  verbatim : result.output = output
  isError : result.isError = true ↔
    ∃ ms, Json.parse? output = some (.object ms) ∧ "error" ∈ ms.map Prod.fst

end ReasonAct.World
