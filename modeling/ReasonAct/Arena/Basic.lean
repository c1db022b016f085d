import ReasonAct.Arena.Block
import ReasonAct.Text.Utf8
/-!
Arenas: memory that is handed out piece by piece from a chain of blocks and given back all at
once. A handle names the arena and the epoch it comes from, and a reset starts a new epoch, so
that no handle ever reads what was handed out after it had expired.
-/
set_option autoImplicit false

namespace ReasonAct

namespace Arena

structure Handle where
  arena : Nat
  epoch : Nat
  block : Nat
  offset : Nat
  len : Nat
  deriving DecidableEq, Repr

structure Stats where
  totalCapacity : Nat
  totalUsed : Nat
  blockCount : Nat
  largestBlock : Nat
  epoch : Nat
  deriving DecidableEq, Repr

def Stats.zero : Stats := ⟨0, 0, 0, 0, 0⟩

def leastCapacity : Nat := 1024
def defaultBlockSize : Nat := 65536

/-- Whether the machine provides a block of a size. -/
abbrev Host := Nat → Bool

/-- The host that provides every block whose places can be told apart by a signed word. -/
def addressable : Host := (2 * · < UInt64.size)

end Arena

structure Arena where
  id : Nat
  blocks : List Arena.Block
  current : Nat
  blockSize : Nat
  epoch : Nat
  deriving DecidableEq, Repr

namespace Arena

def create (host : Host) (id capacity blockSize : Nat) : Option Arena :=
  let capacity := max capacity leastCapacity
  if host capacity then some ⟨id, [.fresh capacity], 0, max blockSize leastCapacity, 0⟩ else none

def hasRoom (a : Arena) (n i : Nat) : Bool :=
  match a.blocks[i]? with
  | some b => n ≤ b.room
  | none => false

/-- The block that takes a piece of `n` bytes: the current one, else the first with room, else a
new one at the end. -/
def place (host : Host) (n : Nat) (a : Arena) : Option (Nat × Arena) :=
  if a.hasRoom n a.current then some (a.current, a)
  else match a.blocks.findIdx? (fun b => n ≤ b.room) with
    | some i => some (i, a)
    | none =>
      let capacity := max a.blockSize n
      if host capacity then
        some (a.blocks.length, { a with blocks := a.blocks ++ [.fresh capacity] })
      else none

def usedOf (a : Arena) (i : Nat) : Nat := (a.blocks[i]?.map Block.used).getD 0

def alloc (host : Host) (size : Nat) (a : Arena) : Option (Handle × Arena) := do
  let n ← alignUp size
  let (i, a) ← a.place host n
  pure (⟨a.id, a.epoch, i, a.usedOf i, size⟩,
    { a with blocks := a.blocks.modify i (·.take n), current := i })

def contains (a : Arena) (h : Handle) : Bool :=
  h.arena = a.id && h.epoch = a.epoch && h.block < a.blocks.length

def read (a : Arena) (h : Handle) : Option (List UInt8) :=
  if a.contains h then a.blocks[h.block]?.bind (·.read h.offset h.len) else none

/-- Overwrites a piece; the data must have its length. -/
def write (a : Arena) (h : Handle) (data : List UInt8) : Option Arena :=
  if a.contains h ∧ data.length = h.len then
    (a.blocks[h.block]?.bind (·.write h.offset data)).map fun b =>
      { a with blocks := a.blocks.set h.block b }
  else none

def allocBytes (host : Host) (data : List UInt8) (a : Arena) : Option (Handle × Arena) := do
  let (h, a) ← a.alloc host data.length
  let a ← a.write h data
  pure (h, a)

def allocText (host : Host) (s : String) (a : Arena) : Option (Handle × Arena) :=
  a.allocBytes host (Text.Utf8.encode s)

def readText (a : Arena) (h : Handle) : Option String := (a.read h).bind Text.Utf8.decode?

/-- Takes everything back; the blocks stay, and so do their bytes. -/
def reset (a : Arena) : Arena :=
  { a with blocks := a.blocks.map Block.clear, current := 0, epoch := a.epoch + 1 }

def stats (a : Arena) : Stats where
  totalCapacity := (a.blocks.map Block.capacity).foldl (· + ·) 0
  totalUsed := (a.blocks.map Block.used).foldl (· + ·) 0
  blockCount := a.blocks.length
  largestBlock := (a.blocks.map Block.capacity).foldl max 0
  epoch := a.epoch

end Arena
end ReasonAct
