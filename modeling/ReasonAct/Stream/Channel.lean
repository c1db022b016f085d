set_option autoImplicit false

namespace ReasonAct

structure Channel (α : Type) where
  capacity : Nat
  queue : List α
  /-- The sign to the senders that the consumer wants no more. -/
  cancelled : Bool
  /-- The queue takes nothing more. -/
  closed : Bool
  senders : Nat
  deriving DecidableEq, Repr

namespace Channel

variable {α : Type}

/-- A channel has room for one event at least, and starts with one sender. -/
def create (capacity : Nat) : Channel α := ⟨max capacity 1, [], false, false, 1⟩

inductive Sent where
  | accepted
  | refused
  /-- The sender would have to wait. -/
  | full
  deriving DecidableEq, Repr

/-- What becomes of an event at the queue. -/
def push (e : α) (c : Channel α) : Sent × Channel α :=
  if c.closed then (.refused, c)
  else if c.queue.length < c.capacity then (.accepted, { c with queue := c.queue ++ [e] })
  else (.full, c)

/-- A sender turns to the queue only if it has seen no sign to stop. -/
def send (e : α) (c : Channel α) : Sent × Channel α :=
  if c.cancelled then (.refused, c) else c.push e

inductive Received (α : Type) where
  | event (e : α)
  | ended
  /-- The consumer would have to wait. -/
  | waiting
  deriving DecidableEq, Repr

def receive (c : Channel α) : Received α × Channel α :=
  match c.queue with
  | e :: rest => (.event e, { c with queue := rest })
  | [] => (if c.closed || c.senders = 0 then .ended else .waiting, c)

def announce (c : Channel α) : Channel α := { c with cancelled := true }

def close (c : Channel α) : Channel α := { c with closed := true }

/-- The senders are told first: one that has looked before still finds the queue closed. -/
def cancel (c : Channel α) : Channel α := c.announce.close

def addSender (c : Channel α) : Channel α := { c with senders := c.senders + 1 }

def dropSender (c : Channel α) : Channel α := { c with senders := c.senders - 1 }

end Channel
end ReasonAct
