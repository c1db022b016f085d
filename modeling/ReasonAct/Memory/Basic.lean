import ReasonAct.Chat.Message
import ReasonAct.Error
/-!
Memories keep messages from one run to the next. A bounded one lets its oldest messages go, and
with them every tool message that would then stand without the call it answers.
-/
set_option autoImplicit false

namespace ReasonAct

inductive MemoryKind where
  /-- Keeps so many messages at most; zero stands for all. -/
  | kept (bound : Nat)
  | forgetful
  /-- Takes so many messages and refuses all others. -/
  | failing (after : Nat)
  deriving DecidableEq, Repr, Inhabited

structure Memory where
  kind : MemoryKind
  messages : List Message
  /-- How many messages were ever taken. -/
  taken : Nat
  deriving DecidableEq, Inhabited

namespace Memory

def empty (kind : MemoryKind) : Memory := ⟨kind, [], 0⟩

def name (m : Memory) : String :=
  match m.kind with
  | .kept _ => "in_memory"
  | .forgetful => "none"
  | .failing _ => "failing"

/-- Lets go of the oldest messages beyond the bound. -/
def evict (bound : Nat) (ms : List Message) : List Message :=
  if bound = 0 ∨ ms.length ≤ bound then ms
  else (ms.drop (ms.length - bound)).dropWhile (·.role = .tool)

/-- Whether the memory needs more room from the host for each message. -/
def grows (m : Memory) : Bool :=
  match m.kind with
  | .kept _ => true
  | _ => false

/-- Appends to a memory that has room for the message. -/
def append (m : Memory) (msg : Message) : Except Error Memory :=
  match m.kind with
  | .kept bound =>
    .ok { m with messages := evict bound (m.messages ++ [msg]), taken := m.taken + 1 }
  | .forgetful => .ok m
  | .failing after =>
    if m.taken < after then
      .ok { m with messages := m.messages ++ [msg], taken := m.taken + 1 }
    else .error (.outOfMemory "stub memory refused")

def last (m : Memory) (n : Nat) : List Message := m.messages.drop (m.messages.length - n)

def clear (m : Memory) : Memory := { m with messages := [] }

end Memory
end ReasonAct
