import ReasonAct.Arena.Shared
import ReasonAct.Config.Basic
import ReasonAct.Event.Bus
import ReasonAct.Memory.Basic
import ReasonAct.Provider.Attempt
import ReasonAct.Run.Loop
import ReasonAct.Tool.Basic
/-!
Everything that lives side by side: sessions, registries, agents, memories, models, clients and
buses. Each is known by its number, and what is made never goes away.
-/
set_option autoImplicit false

namespace ReasonAct

structure Session where
  label : String
  arena : SharedArena
  workingDir : Option String
  bus : Option Nat
  closed : Bool
  agents : List Nat
  registries : List Nat
  clients : List Nat

/-- A registered tool; its texts are kept in the arena of the session. -/
structure Entry where
  name : Arena.Handle
  description : Arena.Handle
  schema : Arena.Handle
  tool : Tool

structure Registry where
  session : Nat
  entries : List Entry
  released : Bool

/-- Who answers an agent: a script, or a chain of providers with a time limit each. -/
inductive Route where
  | script (id : Nat) (name : String)
  | fallback (name : String) (entries : List (Route × Nat))

def Route.name : Route → String
  | .script _ name => name
  | .fallback name _ => name

structure Agent where
  name : String
  session : Nat
  workingDir : Option String
  route : Route
  registry : Option Nat
  memory : Option Nat
  maxIterations : UInt32
  timeoutMs : Option UInt64
  instructions : Option String
  bus : Option Nat
  userData : Option String
  iterations : UInt32
  shutDown : Bool

/-- A connection to a server of tools, which keeps a log of what was asked of it. -/
structure Client where
  name : String
  connected : Bool
  tools : List RemoteToolInfo
  connectError : Option Error
  /-- Connecting succeeds without any effect. -/
  connectNoop : Bool
  listError : Option Error
  replies : List (String × Except Error String)
  /-- Sessions that the client closes when it is disconnected. Other code that a client might run
  then is left out. -/
  closes : List Nat
  log : List String

structure Prelude where
  hooks : List Hook
  delayMs : Nat

/-- A model that gives prepared outcomes, one a call, and keeps every request it answered. -/
structure Script where
  name : String
  outcomes : List (Except ProviderError ChatResponse)
  preludes : List Prelude
  requests : List ChatRequest

def Script.push (outcome : Except ProviderError ChatResponse) (prelude : Prelude) (s : Script) :
    Script :=
  { s with outcomes := s.outcomes ++ [outcome], preludes := s.preludes ++ [prelude] }

/-- What grows only where the host gives it room. -/
inductive Store where
  | memory
  | history
  | table
  deriving DecidableEq

structure World where
  sessions : List Session
  registries : List Registry
  agents : List Agent
  memories : List Memory
  scripts : List Script
  clients : List Client
  buses : List (Bus Event)
  nextArena : Nat
  host : Arena.Host
  /-- Whether a store of so many items is given room for one more. -/
  room : Store → Nat → Bool
  files : FileTree
  workingDir : Option String
  /-- Stands still, unless code of others runs. -/
  now : Instant

namespace World

def empty (host : Arena.Host) (files : FileTree) (workingDir : Option String) (now : Instant) :
    World := ⟨[], [], [], [], [], [], [], 1, host, fun _ _ => true, files, workingDir, now⟩

def updateSession (f : Session → Session) (i : Nat) (w : World) : World :=
  { w with sessions := w.sessions.modify i f }

def updateRegistry (f : Registry → Registry) (i : Nat) (w : World) : World :=
  { w with registries := w.registries.modify i f }

def updateAgent (f : Agent → Agent) (i : Nat) (w : World) : World :=
  { w with agents := w.agents.modify i f }

def updateMemory (f : Memory → Memory) (i : Nat) (w : World) : World :=
  { w with memories := w.memories.modify i f }

def updateScript (f : Script → Script) (i : Nat) (w : World) : World :=
  { w with scripts := w.scripts.modify i f }

def updateClient (f : Client → Client) (i : Nat) (w : World) : World :=
  { w with clients := w.clients.modify i f }

def publish (bus : Option Nat) (e : Event) (w : World) : World :=
  match bus with
  | some i => { w with buses := w.buses.modify i (·.publish e) }
  | none => w

/-- What a receiver of a bus has not read yet. -/
def drain (bus receiver : Nat) (w : World) : Bus.Pending Event × World :=
  match w.buses[bus]? with
  | none => (⟨0, []⟩, w)
  | some b =>
    let (pending, b) := b.drain receiver
    (pending, { w with buses := w.buses.set bus b })

def resetAgent : Nat → World → World := updateAgent fun a => { a with iterations := 0 }

def arenaOf (w : World) (r : Registry) : Option SharedArena :=
  (w.sessions[r.session]?).map Session.arena

def addMemory (m : Memory) (w : World) : Nat × World :=
  (w.memories.length, { w with memories := w.memories ++ [m] })

def addScript (s : Script) (w : World) : Nat × World :=
  (w.scripts.length, { w with scripts := w.scripts ++ [s] })

def addClient (c : Client) (w : World) : Nat × World :=
  (w.clients.length, { w with clients := w.clients ++ [c] })

def addBus (b : Bus Event) (w : World) : Nat × World :=
  (w.buses.length, { w with buses := w.buses ++ [b] })

end World
end ReasonAct
