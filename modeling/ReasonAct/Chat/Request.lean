import ReasonAct.Chat.Message
set_option autoImplicit false

namespace ReasonAct

structure ChatRequest where
  messages : List Message
  tools : Option String
  timeoutMs : Option UInt64
  deriving DecidableEq, Inhabited

structure ToolDefinition where
  name : String
  description : String
  parameters : Json
  deriving BEq, Inhabited

structure RemoteToolInfo where
  name : String
  description : String
  inputSchema : Json
  deriving BEq, Inhabited

def emptySchema : Json := .ofFields [("type", .string "object"), ("properties", .object [])]

def emptySchemaText : String := "\x7b\"type\":\"object\",\"properties\":\x7b\x7d\x7d"

namespace ChatRequest

open Json Source

def source (r : ChatRequest) : Source :=
  .object (("messages", .array (r.messages.map Message.source)) ::
    (given "tools" .string r.tools ++ given "timeout_ms" .uint64 r.timeoutMs))

def ofSource? (s : Source) : Option ChatRequest := do
  let r ← s.record? ["messages", "tools", "timeout_ms"]
  pure ⟨← r.required "messages" (list? Message.ofSource?), ← r.optional "tools" string?,
    ← r.optional "timeout_ms" uint64?⟩

end ChatRequest

namespace ToolDefinition

def function (d : ToolDefinition) : Json :=
  .ofFields [("type", .string "function"), ("function", .ofFields
    [("name", .string d.name), ("description", .string d.description),
      ("parameters", d.parameters)])]

open Json Source

def source (d : ToolDefinition) : Source :=
  .object [("name", .string d.name), ("description", .string d.description),
    ("parameters", d.parameters.source)]

def ofSource? (s : Source) : Option ToolDefinition := do
  let r ← s.record? ["name", "description", "parameters"]
  pure ⟨← r.required "name" string?, ← r.required "description" string?,
    ← r.required "parameters" value?⟩

end ToolDefinition

namespace RemoteToolInfo

open Json Source

def source (t : RemoteToolInfo) : Source :=
  .object [("name", .string t.name), ("description", .string t.description),
    ("input_schema", t.inputSchema.source)]

def ofSource? (s : Source) : Option RemoteToolInfo := do
  let r ← s.record? ["name", "description", "input_schema"]
  pure ⟨← r.required "name" string?, ← r.defaulted "description" "" string?,
    ← r.defaulted "input_schema" emptySchema value?⟩

end RemoteToolInfo
end ReasonAct
