import ReasonAct.Arena.Basic
set_option autoImplicit false

namespace ReasonAct

structure SharedArena where
  id : Nat
  inner : Option Arena
  deriving DecidableEq, Repr

namespace SharedArena

open Arena (Host Handle Stats)

def ofArena (a : Arena) : SharedArena := ⟨a.id, some a⟩

def create (host : Host) (id capacity blockSize : Nat) : Option SharedArena :=
  (Arena.create host id capacity blockSize).map ofArena

def isDestroyed (s : SharedArena) : Bool := s.inner.isNone

def issue (f : Arena → Option (Handle × Arena)) (s : SharedArena) :
    Option (Handle × SharedArena) := do
  let a ← s.inner
  let (h, a) ← f a
  pure (h, { s with inner := some a })

def alloc (host : Host) (size : Nat) : SharedArena → Option (Handle × SharedArena) :=
  issue (Arena.alloc host size)

def allocBytes (host : Host) (data : List UInt8) : SharedArena → Option (Handle × SharedArena) :=
  issue (Arena.allocBytes host data)

def allocText (host : Host) (t : String) : SharedArena → Option (Handle × SharedArena) :=
  issue (Arena.allocText host t)

def read (s : SharedArena) (h : Handle) : Option (List UInt8) := s.inner.bind (·.read h)

def readText (s : SharedArena) (h : Handle) : Option String := s.inner.bind (·.readText h)

def write (s : SharedArena) (h : Handle) (data : List UInt8) : Option SharedArena :=
  (s.inner.bind (·.write h data)).map fun a => { s with inner := some a }

def reset (s : SharedArena) : SharedArena := { s with inner := s.inner.map Arena.reset }

def destroy (s : SharedArena) : SharedArena := { s with inner := none }

def stats (s : SharedArena) : Stats := (s.inner.map Arena.stats).getD .zero

end SharedArena
end ReasonAct
