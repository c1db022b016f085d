import ReasonAct.World.Registry
set_option autoImplicit false

namespace ReasonAct.World

def memoryFull : Error := .outOfMemory "conversation memory is full"

def remember (memory : Nat) (m : Message) (w : World) : Except Error World :=
  match w.memories[memory]? with
  | none => .error (.notFound "memory")
  | some mem =>
    if mem.grows && !w.room .memory mem.messages.length then .error memoryFull
    else (mem.append m).map fun mem => w.updateMemory (fun _ => mem) memory

/-- Carries out one act; what goes wrong in it has no effect. -/
def perform (w : World) : Hook → World
  | .close session => w.close session
  | .addTool registry tool => (w.addTool registry tool).2
  | .append memory message =>
    match w.remember memory message with
    | .ok w => w
    | .error _ => w
  | .clearMemory memory => w.updateMemory Memory.clear memory
  | .disconnect client => w.disconnect client
  | .resetAgent agent => w.resetAgent agent

def performAll (hooks : List Hook) (w : World) : World := hooks.foldl perform w

def log (line : String) : Nat → World → World :=
  updateClient fun c => { c with log := c.log ++ [line] }

/-- The server's own answer to a call it has no prepared reply for. -/
def acknowledge (tool arguments : String) : Except Error String :=
  match Json.parse? arguments with
  | none => .error (.serialization "<detail>")
  | some args => .ok (Json.ofFields [("tool", .string tool), ("arguments", args)]).text

def callRemote (client : Nat) (tool arguments : String) (w : World) :
    Except ToolError String × World :=
  match w.clients[client]? with
  | none => (.error (.remote "no client"), w)
  | some c =>
    if !c.connected then (.error (.remote ("client '" ++ c.name ++ "' is not connected")), w)
    else
      let reply := (c.replies.lookup tool).getD (acknowledge tool arguments)
      (match reply with
        | .ok text => .ok text
        | .error e => .error (.remote e.message),
        log ("call_tool " ++ tool ++ " " ++ arguments) client w)

def execute (tool : Tool) (ctx : ToolContext) (arguments : String) (w : World) :
    Except ToolError String × World :=
  match tool with
  | .builtin b => (b.execute w.files w.now ctx arguments, w)
  | .closure _ _ _ hooks reply => (reply.answer ctx arguments, w.performAll hooks)
  | .remote client info => callRemote client info.name arguments w

/-- The text that stands for the outcome of a tool: its own output unless that is blank, else an
error payload. -/
def outputText (name : String) : Except ToolError String → String
  | .ok output =>
    if Text.blank output then errorPayload ("Tool '" ++ name ++ "' returned no output") else output
  | .error e => errorPayload e.message

/-- Runs the tool of a name. An error is returned only when the registry is gone. -/
def call (id : Nat) (name arguments : String) (ctx : ToolContext) (w : World) :
    Except Error String × World :=
  match w.live? id with
  | .error e => (.error e, w)
  | .ok _ =>
    match w.handler? id name with
    | none => (.ok (Run.notFound name), w)
    | some tool =>
      let (outcome, w) := execute tool ctx arguments w
      (.ok (outputText name outcome), w)

def dispatch (id : Nat) (ctx : ToolContext) (c : ToolCall) (w : World) :
    Except Error ToolResult × World :=
  let (output, w) := w.call id c.name c.arguments ctx
  (output.map (ToolResult.ofOutput c.id), w)

def connect (client : Nat) (w : World) : Except Error Unit × World :=
  match w.clients[client]? with
  | none => (.ok (), w)
  | some c =>
    let w := log "connect" client w
    match c.connectError with
    | some e => (.error e, w)
    | none =>
      (.ok (), if c.connectNoop then w
        else w.updateClient (fun c => { c with connected := true }) client)

def listTools (client : Nat) (w : World) : Except Error (List RemoteToolInfo) × World :=
  match w.clients[client]? with
  | none => (.ok [], w)
  | some c => (match c.listError with
      | some e => .error e
      | none => .ok c.tools, log "list_tools" client w)

def addWhileOk (id : Nat) : List Tool → World → Except Error Unit × World
  | [], w => (.ok (), w)
  | tool :: tools, w =>
    match w.addTool id tool with
    | (.error e, w) => (.error e, w)
    | (.ok _, w) => addWhileOk id tools w

/-- Adds the tools that a client offers, and says how many are new. The session tracks the client
first, so that closing it disconnects the client whatever comes next. -/
def addRemoteTools (id session client : Nat) (w : World) : Except Error Nat × World :=
  match w.live? id with
  | .error e => (.error e, w)
  | .ok (r, _) =>
    if session ≠ r.session then
      (.error (.invalidArgument "tool registry belongs to a different session"), w)
    else match w.trackClient session client with
      | .error e => (.error e, w)
      | .ok w =>
        let connected := (w.clients[client]?.map Client.connected).getD false
        let (joined, w) := if connected then (.ok (), w) else w.connect client
        match joined with
        | .error e => (.error e, w)
        | .ok _ =>
          match w.listTools client with
          | (.error e, w) => (.error e, w)
          | (.ok infos, w) =>
            let before := w.toolCount id
            match addWhileOk id (infos.map (Tool.remote client)) w with
            | (.error e, w) => (.error e, w)
            | (.ok _, w) => (.ok (w.toolCount id - before), w)

end ReasonAct.World
