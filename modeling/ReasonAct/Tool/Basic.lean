import ReasonAct.Tool.Builtin
set_option autoImplicit false

namespace ReasonAct

inductive Reply where
  | fails (e : ToolError)
  /-- With what it was told of its caller. -/
  | context
  /-- With its arguments in capitals. -/
  | capitals
  | returns (text : String)
  deriving DecidableEq, Repr, Inhabited

mutual

inductive Tool where
  | builtin (b : Builtin)
  | closure (name description : String) (schema : Json) (hooks : List Hook) (reply : Reply)
  /-- A tool of a remote server, reached through a client. -/
  | remote (client : Nat) (info : RemoteToolInfo)

inductive Hook where
  | close (session : Nat)
  | addTool (registry : Nat) (tool : Tool)
  | append (memory : Nat) (message : Message)
  | clearMemory (memory : Nat)
  | disconnect (client : Nat)
  | resetAgent (agent : Nat)

end

instance : Inhabited Tool := ⟨.builtin .echo⟩

namespace Tool

def name : Tool → String
  | .builtin b => b.name
  | .closure name _ _ _ _ => name
  | .remote _ info => info.name

def description : Tool → String
  | .builtin b => b.description
  | .closure _ description _ _ _ => description
  | .remote _ info => info.description

def schema : Tool → Json
  | .builtin b => b.schema
  | .closure _ _ schema _ _ => schema
  | .remote _ info => info.inputSchema

end Tool

def Reply.answer (ctx : ToolContext) (arguments : String) : Reply → Except ToolError String
  | .fails e => .error e
  | .context =>
    let text (o : Option String) : Json := (o.map Json.string).getD .null
    .ok (Json.ofFields [("session", .string ctx.sessionId), ("args", .string arguments),
      ("working_dir", text ctx.workingDir), ("user_data", text ctx.userData),
      ("wrong_type", .null)]).text
  | .capitals => .ok (String.ofList (arguments.toList.map Char.toUpper))
  | .returns text => .ok text

end ReasonAct
