import ReasonAct.Event.Basic
import ReasonAct.Text.Inspect
/-!
Buses tell every receiver what is published after it subscribed. A bus holds a fixed number of
events; a receiver that falls behind by more loses the oldest and is told how many.
-/
set_option autoImplicit false

namespace ReasonAct

structure Bus (α : Type) where
  capacity : Nat
  /-- The last events, oldest first. -/
  held : List α
  published : Nat
  /-- The receivers, and how far each has read. -/
  receivers : List (Nat × Nat)
  nextReceiver : Nat
  deriving Inhabited

namespace Bus

variable {α : Type}

/-- Capacities are rounded up to a power of two. -/
def roundUp (n : Nat) : Nat := if n ≤ 1 then 1 else Nat.pow 2 ((n - 1).log2 + 1)

def create (capacity : Nat) : Bus α := ⟨roundUp capacity, [], 0, [], 0⟩

def defaultCapacity : Nat := 256

/-- What nobody would receive is not kept. -/
def publish (e : α) (b : Bus α) : Bus α :=
  if b.receivers.isEmpty then b
  else
    let held := b.held ++ [e]
    { b with held := held.drop (held.length - b.capacity), published := b.published + 1 }

def subscribe (b : Bus α) : Nat × Bus α :=
  (b.nextReceiver,
    { b with
      receivers := b.receivers ++ [(b.nextReceiver, b.published)]
      nextReceiver := b.nextReceiver + 1 })

def unsubscribe (r : Nat) (b : Bus α) : Bus α :=
  { b with receivers := b.receivers.filter (·.1 ≠ r) }

structure Pending (α : Type) where
  lost : Nat
  events : List α

def pending (r : Nat) (b : Bus α) : Pending α :=
  match b.receivers.lookup r with
  | none => ⟨0, []⟩
  | some read =>
    let oldest := b.published - b.held.length
    ⟨oldest - read, b.held.drop (read - oldest)⟩

def drain (r : Nat) (b : Bus α) : Pending α × Bus α :=
  (b.pending r, { b with
    receivers := b.receivers.map fun (i, read) => (i, if i = r then b.published else read) })

def inspect (b : Bus α) : String :=
  Inspect.record "EventBus" [("subscribers", toString b.receivers.length)]

end Bus
end ReasonAct
