import ReasonAct.Arena.Shared
set_option autoImplicit false

namespace ReasonAct

namespace Arena

inductive Cell where
  /-- An arena with one owner; none once it is destroyed. -/
  | exclusive (arena : Option Arena)
  | shared (arena : SharedArena)
  deriving DecidableEq, Repr

inductive Sharing where
  | exclusive
  | shared
  deriving DecidableEq, Repr

namespace Cell

def issue (f : Arena → Option (Handle × Arena)) : Cell → Option (Handle × Cell)
  | .exclusive a => a.bind fun a => (f a).map fun (h, a) => (h, .exclusive (some a))
  | .shared s => (s.issue f).map fun (h, s) => (h, .shared s)

def read (h : Handle) : Cell → Option (List UInt8)
  | .exclusive a => a.bind (·.read h)
  | .shared s => s.read h

def readText (h : Handle) : Cell → Option String
  | .exclusive a => a.bind (·.readText h)
  | .shared s => s.readText h

def write (h : Handle) (data : List UInt8) : Cell → Option Cell
  | .exclusive a => (a.bind (·.write h data)).map fun a => .exclusive (some a)
  | .shared s => (s.write h data).map .shared

def contains (h : Handle) : Cell → Bool
  | .exclusive a => a.any (·.contains h)
  | .shared s => s.inner.any (·.contains h)

def reset : Cell → Cell
  | .exclusive a => .exclusive (a.map Arena.reset)
  | .shared s => .shared s.reset

def destroy : Cell → Cell
  | .exclusive _ => .exclusive none
  | .shared s => .shared s.destroy

def isDestroyed : Cell → Bool
  | .exclusive a => a.isNone
  | .shared s => s.isDestroyed

/-- A destroyed arena of one owner has no footprint at all. -/
def stats : Cell → Option Stats
  | .exclusive a => a.map Arena.stats
  | .shared s => some s.stats

def share : Cell → Cell
  | .exclusive (some a) => .shared (.ofArena a)
  | c => c

end Cell

structure Pool where
  next : Nat
  cells : List Cell
  deriving Repr

namespace Pool

def empty : Pool := ⟨1, []⟩

/-- A new arena at the end; a refused one uses up no id. -/
def create (host : Host) (capacity blockSize : Nat) (sharing : Sharing) (p : Pool) : Option Pool :=
  (Arena.create host p.next capacity blockSize).map fun a =>
    ⟨p.next + 1, p.cells ++ [match sharing with
      | .exclusive => .exclusive (some a)
      | .shared => .shared (.ofArena a)]⟩

def issue (f : Arena → Option (Handle × Arena)) (i : Nat) (p : Pool) : Option (Handle × Pool) := do
  let c ← p.cells[i]?
  let (h, c) ← c.issue f
  pure (h, { p with cells := p.cells.set i c })

def write (i : Nat) (h : Handle) (data : List UInt8) (p : Pool) : Option Pool := do
  let c ← p.cells[i]?
  let c ← c.write h data
  pure { p with cells := p.cells.set i c }

def update (f : Cell → Cell) (i : Nat) (p : Pool) : Pool :=
  { p with cells := p.cells.modify i f }

end Pool
end Arena
end ReasonAct
