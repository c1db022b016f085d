import ReasonAct.World.Session
/-!
Registries: tools by name. The name, description and schema of a tool are copied into the arena
of the session, so that a registry knows a tool exactly as long as its session is open.
-/
set_option autoImplicit false

namespace ReasonAct

structure ToolDescriptor where
  name : String
  description : String
  parameters : String
  tool : Tool

def ToolDescriptor.definition (d : ToolDescriptor) : ToolDefinition :=
  ⟨d.name, d.description, (Json.parse? d.parameters).getD emptySchema⟩

namespace World

def released : Error := .invalidState "tool registry was released with its session"

def createRegistry (session : Nat) (w : World) : Except Error Nat × World :=
  match w.openSession? session with
  | .error e => (.error e, w)
  | .ok _ =>
    let id := w.registries.length
    let made : World := { w with registries := w.registries ++ [⟨session, [], false⟩] }
    match made.trackRegistry session id with
    | .error e => (.error e, w)
    | .ok w => (.ok id, w)

/-- The registry with its arena, while both are there. -/
def live? (w : World) (id : Nat) : Except Error (Registry × SharedArena) :=
  match w.registries[id]? with
  | none => .error released
  | some r =>
    match w.arenaOf r with
    | none => .error released
    | some a => if r.released || a.isDestroyed then .error released else .ok (r, a)

def schemaText (name : String) (schema : Json) : Except Error String :=
  match schema with
  | .null => .ok emptySchemaText
  | .object ms => .ok (Json.object ms).text
  | other => .error (.invalidArgument
      ("tool '" ++ name ++ "' schema must be a JSON object, got " ++ other.text))

def copyIn (host : Arena.Host) (text : String) (a : SharedArena) :
    Except Error (Arena.Handle × SharedArena) :=
  match a.allocText host text with
  | some r => .ok r
  | none =>
    if a.isDestroyed then .error (.invalidState "session arena is destroyed")
    else .error (.outOfMemory ("arena refused " ++ toString text.utf8ByteSize ++ " bytes"))

/-- Copies the three texts of a tool. What was copied before a refusal stays handed out. -/
def copyEntry (host : Arena.Host) (tool : Tool) (schema : String) (a : SharedArena) :
    Except Error Entry × SharedArena :=
  match copyIn host tool.name a with
  | .error e => (.error e, a)
  | .ok (name, a) =>
    match copyIn host tool.description a with
    | .error e => (.error e, a)
    | .ok (description, a) =>
      match copyIn host schema a with
      | .error e => (.error e, a)
      | .ok (schema, a) => (.ok ⟨name, description, schema, tool⟩, a)

def isNamed (a : SharedArena) (name : String) (e : Entry) : Bool := a.readText e.name = some name

def tableFull : Error := .outOfMemory "tool table is full"

/-- Adds a tool. Of tools with one name the first stays. Its texts are copied before the table of
the registry is made to grow. -/
def addTool (id : Nat) (tool : Tool) (w : World) : Except Error Unit × World :=
  match w.live? id with
  | .error e => (.error e, w)
  | .ok (r, a) =>
    if tool.name.isEmpty then (.error (.invalidArgument "tool name must not be empty"), w)
    else match schemaText tool.name tool.schema with
      | .error e => (.error e, w)
      | .ok schema =>
        if r.entries.any (isNamed a tool.name) then (.ok (), w)
        else
          let (entry, a) := copyEntry w.host tool schema a
          let w := w.updateSession (fun s => { s with arena := a }) r.session
          match entry with
          | .error e => (.error e, w)
          | .ok entry =>
            if w.room .table r.entries.length then
              (.ok (), w.updateRegistry (fun r => { r with entries := r.entries ++ [entry] }) id)
            else (.error tableFull, w)

/-- Adds tools in order, past failures, and reports the first one. -/
def addAll (id : Nat) (tools : List Tool) (w : World) : Except Error Unit × World :=
  tools.foldl (fun (first, w) tool =>
    match first, addTool id tool w with
    | .error e, (_, w) => (.error e, w)
    | .ok _, (r, w) => (r, w)) (.ok (), w)

def describe (a : SharedArena) (e : Entry) : Option ToolDescriptor := do
  pure ⟨← a.readText e.name, ← a.readText e.description, ← a.readText e.schema, e.tool⟩

def entriesOf (w : World) (id : Nat) : List Entry × SharedArena :=
  match w.registries[id]? with
  | none => ([], ⟨0, none⟩)
  | some r => (r.entries, (w.arenaOf r).getD ⟨0, none⟩)

def find? (w : World) (id : Nat) (name : String) : Option ToolDescriptor :=
  let (es, a) := w.entriesOf id
  (es.find? (isNamed a name)).bind (describe a)

def handler? (w : World) (id : Nat) (name : String) : Option Tool :=
  let (es, a) := w.entriesOf id
  (es.find? (isNamed a name)).map Entry.tool

def toolCount (w : World) (id : Nat) : Nat := (w.entriesOf id).1.length

def toolNames (w : World) (id : Nat) : List String :=
  let (es, a) := w.entriesOf id
  es.filterMap fun e => a.readText e.name

def definitions (w : World) (id : Nat) : List ToolDefinition :=
  let (es, a) := w.entriesOf id
  (es.filterMap (describe a)).map ToolDescriptor.definition

def functions? (w : World) (id : Nat) : Option String :=
  match w.definitions id with
  | [] => none
  | ds => some (Json.array (ds.map ToolDefinition.function)).text

end World
end ReasonAct
