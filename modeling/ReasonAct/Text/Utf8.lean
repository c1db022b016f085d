/-!
Bytes and characters. `scan` reads bytes as UTF-8 and marks each ill-formed stretch: the longest
beginning of a character that the next byte does not continue, or else one byte.
-/
set_option autoImplicit false

namespace ReasonAct.Text.Utf8

/-- A character under way: the bytes still owed, the range of the next one, the bits so far. -/
structure Pending where
  owed : Nat
  low : Nat
  high : Nat
  bits : Nat
  deriving DecidableEq, Repr

/-- What a byte says when no character is under way. -/
inductive Lead where
  | char (c : Char)
  | opens (p : Pending)
  | none
  deriving DecidableEq, Repr

/-- The second byte's range rules out overlong forms, surrogates and values past U+10FFFF. -/
def lead (b : Nat) : Lead :=
  if b < 0x80 then .char (Char.ofNat b)
  else if 0xC2 ≤ b && b ≤ 0xDF then .opens ⟨1, 0x80, 0xBF, b - 0xC0⟩
  else if 0xE0 ≤ b && b ≤ 0xEF then
    .opens ⟨2, if b = 0xE0 then 0xA0 else 0x80, if b = 0xED then 0x9F else 0xBF, b - 0xE0⟩
  else if 0xF0 ≤ b && b ≤ 0xF4 then
    .opens ⟨3, if b = 0xF0 then 0x90 else 0x80, if b = 0xF4 then 0x8F else 0xBF, b - 0xF0⟩
  else .none

def Pending.add (p : Pending) (b : Nat) : Lead :=
  let bits := p.bits * 64 + (b - 0x80)
  if p.owed ≤ 1 then .char (Char.ofNat bits) else .opens ⟨p.owed - 1, 0x80, 0xBF, bits⟩

/-- The characters read so far, latest first; `none` stands for an ill-formed stretch. -/
def scanFrom : List UInt8 → Option Pending → List (Option Char) → List (Option Char)
  | [], none, out => out
  | [], some _, out => none :: out
  | b :: bs, pending, out =>
    let fresh (out : List (Option Char)) : Option Pending × List (Option Char) :=
      match lead b.toNat with
      | .char c => (none, some c :: out)
      | .opens p => (some p, out)
      | .none => (none, none :: out)
    let (next, out) : Option Pending × List (Option Char) :=
      match pending with
      | none => fresh out
      | some p =>
        if p.low ≤ b.toNat && b.toNat ≤ p.high then
          match p.add b.toNat with
          | .char c => (none, some c :: out)
          | .opens q => (some q, out)
          | .none => (none, none :: out)
        else fresh (none :: out)
    scanFrom bs next out

def scan (bytes : List UInt8) : List (Option Char) := (scanFrom bytes none []).reverse

/-- Reads any bytes, with U+FFFD for each ill-formed stretch. -/
def decodeLossy (bytes : List UInt8) : String :=
  String.ofList ((scan bytes).map (·.getD (Char.ofNat 0xFFFD)))

def decode? (bytes : List UInt8) : Option String :=
  ((scan bytes).mapM id).map String.ofList

def encode (s : String) : List UInt8 := s.toUTF8.toList

def hexDigit (n : Nat) : Char := Char.ofNat (if n < 10 then 48 + n else 87 + n)

def hex (bytes : List UInt8) : String :=
  String.ofList (bytes.flatMap fun b => [hexDigit (b.toNat / 16), hexDigit (b.toNat % 16)])

def hexValue? (c : Char) : Option Nat :=
  let n := c.toNat
  if 48 ≤ n && n ≤ 57 then some (n - 48)
  else if 97 ≤ n && n ≤ 102 then some (n - 87)
  else if 65 ≤ n && n ≤ 70 then some (n - 55)
  else none

def ofHex? : List Char → Option (List UInt8)
  | [] => some []
  | a :: b :: rest => do
    let x ← hexValue? a
    let y ← hexValue? b
    pure (UInt8.ofNat (x * 16 + y) :: (← ofHex? rest))
  | [_] => none

end ReasonAct.Text.Utf8
