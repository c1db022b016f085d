import ReasonAct.World.Basic
/-!
The life of a session. It tracks what is made under it, each thing once. Closing it disconnects
the clients, shuts the agents down, releases the registries and destroys the arena, in this order.
-/
set_option autoImplicit false

namespace ReasonAct

structure SessionCounts where
  agents : Nat
  registries : Nat
  protocolClients : Nat
  deriving DecidableEq, Repr

def Session.counts (s : Session) : SessionCounts :=
  ⟨s.agents.length, s.registries.length, s.clients.length⟩

/-- Adds a number that is not there yet. The list always has room for it: a host that has none
refuses the addition and changes nothing. -/
def track (i : Nat) (is : List Nat) : List Nat := if i ∈ is then is else is ++ [i]

namespace World

def noSession : Error := .notFound "session"

/-- A session without the memory for its arena is not opened. One without room for its empty lists
would not be either, with nothing changed; this is left out. -/
def openSession (label : String) (config : Config) (bus : Option Nat) (w : World) :
    Except Error Nat × World :=
  match SharedArena.create w.host w.nextArena config.arena.initialCapacity.toNat
      config.arena.blockSize.toNat with
  | none => (.error (.outOfMemory "session arena"), w)
  | some arena =>
    (.ok w.sessions.length, { w with
      nextArena := w.nextArena + 1
      sessions := w.sessions ++
        [⟨label, arena, config.workingDir.or w.workingDir, bus, false, [], [], []⟩] })

def openSession? (w : World) (i : Nat) : Except Error Session :=
  match w.sessions[i]? with
  | none => .error noSession
  | some s => if s.closed then .error (Run.sessionClosed s.label) else .ok s

def labelOf (w : World) (i : Nat) : String := (w.sessions[i]?.map Session.label).getD ""

def checkOwner (w : World) (i owner : Nat) (kind : String) : Except Error Unit :=
  if owner = i then .ok ()
  else .error (.invalidArgument
    (kind ++ " belongs to session " ++ w.labelOf owner ++ ", not " ++ w.labelOf i))

def trackAgent (i agent : Nat) (w : World) : Except Error World := do
  let _ ← w.openSession? i
  w.checkOwner i ((w.agents[agent]?.map Agent.session).getD i) "agent"
  pure (w.updateSession (fun s => { s with agents := track agent s.agents }) i)

def trackRegistry (i registry : Nat) (w : World) : Except Error World := do
  let _ ← w.openSession? i
  w.checkOwner i ((w.registries[registry]?.map Registry.session).getD i) "registry"
  pure (w.updateSession (fun s => { s with registries := track registry s.registries }) i)

def trackClient (i client : Nat) (w : World) : Except Error World := do
  let _ ← w.openSession? i
  pure (w.updateSession (fun s => { s with clients := track client s.clients }) i)

/-- Disconnects a client, which may close sessions in turn. -/
def disconnectBy (close : Nat → World → World) (client : Nat) (w : World) : World :=
  let w := w.updateClient
    (fun c => { c with connected := false, log := c.log ++ ["disconnect"] }) client
  ((w.clients[client]?.map Client.closes).getD []).foldl (fun w i => close i w) w

/-- The agents are shut down, then the registries released, then the arena is destroyed. -/
def tearDown (s : Session) (i : Nat) (w : World) : World :=
  let w := s.agents.foldl (fun w a => w.updateAgent (fun a => { a with shutDown := true }) a) w
  let w := s.registries.foldl
    (fun w r => w.updateRegistry (fun r => { r with released := true, entries := [] }) r) w
  w.updateSession (fun s => { s with arena := s.arena.destroy }) i

def closedEvent (s : Session) (now : Instant) : Event :=
  .sessionClosed s.label (UInt64.ofNat s.agents.length) (UInt64.ofNat s.registries.length)
    (UInt64.ofNat s.clients.length) now

/-- The session counts as closed before anything is taken down, so that closing it once more from
within has no effect. -/
def closeBy (close : Nat → World → World) (i : Nat) (w : World) : World :=
  match w.sessions[i]? with
  | none => w
  | some s =>
    if s.closed then w
    else
      let w := w.updateSession
        (fun s => { s with closed := true, clients := [], agents := [], registries := [] }) i
      let w := s.clients.foldl (fun w c => disconnectBy close c w) w
      (tearDown s i w).publish s.bus (closedEvent s w.now)

/-- Closing inside closing nests no deeper than there are sessions. -/
def closeWithin : Nat → Nat → World → World
  | 0, _, w => w
  | depth + 1, i, w => closeBy (closeWithin depth) i w

def close (i : Nat) (w : World) : World := closeWithin w.sessions.length i w

def disconnect (client : Nat) (w : World) : World := disconnectBy close client w

end World
end ReasonAct
