import ReasonAct.World.Tool
set_option autoImplicit false

namespace ReasonAct

structure AgentOptions where
  name : String
  registry : Option Nat
  memory : Option Nat
  maxIterations : UInt32
  timeoutMs : Option UInt64
  instructions : Option String
  bus : Option Nat
  userData : Option String
  deriving DecidableEq, Repr

def AgentOptions.ofDefaults (name : String) (d : AgentDefaults) : AgentOptions :=
  ⟨name, none, none, d.maxIterations, d.timeoutMs, d.instructions, none, none⟩

def Script.exhausted (name : String) (call : Nat) : ProviderError :=
  .backend ("scripted provider '" ++ name ++ "' has no response for call #" ++ toString call)

/-- The next outcome of a script, which keeps the request. -/
def Script.next (request : ChatRequest) (s : Script) : Except ProviderError ChatResponse × Script :=
  let requests := s.requests ++ [request]
  match s.outcomes with
  | o :: rest => (o, { s with outcomes := rest, requests })
  | [] => (.error (exhausted s.name requests.length), { s with requests })

namespace World

/-- A call of a script. What comes before the answer happens even if the answer comes too late. -/
def callScript (id : Nat) : Provider World := fun request limit w =>
  let prelude := ((w.scripts[id]?.map Script.preludes).getD []).headD ⟨[], 0⟩
  let w := w.updateScript (fun s => { s with preludes := s.preludes.tail }) id
  let w := w.performAll prelude.hooks
  if limit.any (· < prelude.delayMs) then (.abandoned, w)
  else match w.scripts[id]? with
    | none => (.answered (.error (Script.exhausted "" 1)) prelude.delayMs, w)
    | some s =>
      let (outcome, s) := s.next request
      (.answered outcome prelude.delayMs, w.updateScript (fun _ => s) id)

mutual

def provider : Route → Provider World
  | .script id _ => callScript id
  | .fallback _ entries => Fallback.chat (providers entries)

def providers : List (Route × Nat) → List (Fallback.Entry World)
  | [] => []
  | (route, timeoutMs) :: rest => ⟨route.name, provider route, timeoutMs⟩ :: providers rest

end

/-- A call without a limit of its own always ends in an answer. -/
def chat (route : Route) (request : ChatRequest) (w : World) :
    Except ProviderError ChatResponse × World :=
  match provider route request none w with
  | (.answered outcome _, w) => (outcome, w)
  | (.abandoned, w) => (.error (.timeout "abandoned"), w)

def createAgent (session : Nat) (o : AgentOptions) (route : Route) (w : World) :
    Except Error Nat × World :=
  match w.openSession? session with
  | .error e => (.error e, w)
  | .ok s =>
    if Text.blank o.name then (.error (.invalidArgument "agent name must not be empty"), w)
    else if o.maxIterations = 0 then
      (.error (.invalidArgument "max_iterations must be at least 1"), w)
    else if (o.registry.bind fun r => w.registries[r]?).any (·.session ≠ session) then
      (.error (.invalidArgument "tool registry belongs to a different session"), w)
    else
      let id := w.agents.length
      let made : World := { w with agents := w.agents ++
        [⟨o.name, session, s.workingDir, route, o.registry, o.memory, o.maxIterations, o.timeoutMs,
          o.instructions, o.bus.or s.bus, o.userData, 0, false⟩] }
      match made.trackAgent session id with
      | .error e => (.error e, w)
      | .ok w => (.ok id, w)

def profile (w : World) (a : Agent) : Profile :=
  ⟨a.name, w.labelOf a.session, a.maxIterations, a.timeoutMs, a.instructions⟩

def contextOf (w : World) (a : Agent) : ToolContext :=
  ⟨w.labelOf a.session, a.workingDir, a.userData⟩

/-- What an agent reaches of the world. Without a registry no tool is found. -/
def collaborators (w : World) (id : Nat) (a : Agent) : Collaborators World where
  chat := chat a.route
  answer c := match a.registry with
    | none => fun w => (.ok (Run.notFound c.name), w)
    | some r => call r c.name c.arguments (w.contextOf a)
  remember m w := match a.memory with
    | none => (.ok (), w)
    | some mem => match remember mem m w with
      | .error e => (.error e, w)
      | .ok w => (.ok (), w)
  reserve _ n w := (w.room .history n, w)
  history w := match a.memory with
    | none => []
    | some mem => (w.memories[mem]?.map Memory.messages).getD []
  schema w := a.registry.bind w.functions?
  isShutDown w := (w.agents[id]?.map Agent.shutDown).getD true
  clock := World.now
  count n := updateAgent (fun a => { a with iterations := n }) id
  publish := publish a.bus

def run (id : Nat) (input : String) (w : World) : Except Error RunResult × World :=
  match w.agents[id]? with
  | none => (.error (.notFound "agent"), w)
  | some a => Run.run (w.collaborators id a) (w.profile a) input w

/-- Runs are not streamed yet. -/
def runStream : Error := .notImplemented "streaming agent runs"

end World
end ReasonAct
