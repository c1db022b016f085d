set_option autoImplicit false

namespace ReasonAct.Arena

def wordSize : Nat := 8

def sizeLimit : Nat := UInt64.size

/-- The least multiple of the word size that is not below a size, if it is still a size. -/
def alignUp (size : Nat) : Option Nat :=
  if size + (wordSize - 1) < sizeLimit then some ((size + (wordSize - 1)) / wordSize * wordSize)
  else none

/-- A block hands out its bytes from the front. Bytes never written are zero. -/
structure Block where
  capacity : Nat
  used : Nat
  /-- The bytes up to the last one ever written. -/
  written : List UInt8
  deriving DecidableEq, Repr

namespace Block

def fresh (capacity : Nat) : Block := ⟨capacity, 0, []⟩

def room (b : Block) : Nat := b.capacity - b.used

def take (b : Block) (n : Nat) : Block := { b with used := b.used + n }

def clear (b : Block) : Block := { b with used := 0 }

def byte (b : Block) (i : Nat) : UInt8 := b.written.getD i 0

/-- Only what has been handed out can be read. -/
def read (b : Block) (offset len : Nat) : Option (List UInt8) :=
  if offset + len ≤ b.used then some ((List.range len).map fun i => b.byte (offset + i)) else none

/-- Puts bytes over a stretch of a list, with zeros up to it if the list is short. -/
def splice (bytes : List UInt8) (offset : Nat) (data : List UInt8) : List UInt8 :=
  (bytes.take offset ++ List.replicate (offset - bytes.length) 0) ++ data ++
    bytes.drop (offset + data.length)

def write (b : Block) (offset : Nat) (data : List UInt8) : Option Block :=
  if offset + data.length ≤ b.used then some { b with written := splice b.written offset data }
  else none

end Block
end ReasonAct.Arena
