import ReasonAct.Text.Blank
import ReasonAct.Time.Instant
/-!
Moments as text. Writing gives RFC 3339 in UTC with three, six or nine places of a second or
none. Reading is laxer: numbers may be short, white space may stand around the separators, and
the offset may be given as `UTC`.
-/
set_option autoImplicit false

namespace ReasonAct.Instant

def twoDigits (n : Nat) : List Char := [Nat.digitChar (n / 10 % 10), Nat.digitChar (n % 10)]

/-- The last `k` decimal digits, leading zeros kept. -/
def padded : Nat → Nat → List Char
  | 0, _ => []
  | k + 1, n => padded k (n / 10) ++ [Nat.digitChar (n % 10)]

def yearChars (y : Int) : List Char :=
  if 0 ≤ y ∧ y ≤ 9999 then padded 4 y.toNat
  else (if y < 0 then '-' else '+') ::
    (if y.natAbs < 10000 then padded 4 y.natAbs else Nat.toDigits 10 y.natAbs)

def fractionChars (nanos : Nat) : List Char :=
  if nanos = 0 then []
  else if nanos % 1000000 = 0 then '.' :: padded 3 (nanos / 1000000)
  else if nanos % 1000 = 0 then '.' :: padded 6 (nanos / 1000)
  else '.' :: padded 9 nanos

def localChars (i : Instant) : List Char :=
  let leap := 1000000000 ≤ i.time.nanos
  yearChars i.date.year ++ '-' :: (twoDigits i.date.month ++ '-' :: (twoDigits i.date.day ++
    'T' :: (twoDigits i.time.hour ++ ':' :: (twoDigits i.time.minute ++ ':' ::
    (twoDigits (if leap then i.time.second + 1 else i.time.second) ++
    fractionChars (i.time.nanos % 1000000000))))))

def chars (i : Instant) : List Char := i.localChars ++ ['Z']

def text (i : Instant) : String := String.ofList i.chars

/-- The time on clocks that are whole hours ahead of UTC, or behind, with that offset. -/
def textAt (hours : Int) (i : Instant) : String :=
  let shown := (ofLocal? i.date i.time (-(hours * 60))).getD i
  String.ofList (shown.localChars ++ (if hours < 0 then '-' else '+') ::
    (twoDigits hours.natAbs ++ [':', '0', '0']))

open Text (trimStart)

/-- One figure at least and `width` at most, after white space. -/
def number? (width : Nat) (cs : List Char) : Option (Nat × List Char) :=
  let cs := trimStart cs
  let ds := (cs.take width).takeWhile Char.isDigit
  if ds.isEmpty then none else some (Nat.ofDigitChars 10 ds 0, cs.drop ds.length)

/-- A signed year may have any number of figures. -/
def year? (cs : List Char) : Option (Int × List Char) :=
  match trimStart cs with
  | '-' :: rest => if rest.head?.any Char.isDigit then
      (number? rest.length rest).map fun (n, rest) => (-(n : Int), rest) else none
  | '+' :: rest => if rest.head?.any Char.isDigit then
      (number? rest.length rest).map fun (n, rest) => ((n : Int), rest) else none
  | rest => (number? 4 rest).map fun (n, rest) => ((n : Int), rest)

def skip? (c : Char) (cs : List Char) : Option (List Char) :=
  match trimStart cs with
  | d :: rest => if d = c then some rest else none
  | [] => none

/-- The places after the point; those past the ninth do not count. -/
def nanos? : List Char → Option (Nat × List Char)
  | '.' :: cs =>
    let ds := cs.takeWhile Char.isDigit
    if ds.isEmpty then none
    else
      let kept := ds.take 9
      some (Nat.ofDigitChars 10 kept 0 * Nat.pow 10 (9 - kept.length), cs.dropWhile Char.isDigit)
  | cs => some (0, cs)

def isZone (cs : List Char) : Bool := cs.map Char.toUpper = ['U', 'T', 'C']

def offset? (cs : List Char) : Option (Int × List Char) :=
  if isZone (cs.take 3) then some (0, cs.drop 3)
  else match cs with
    | 'Z' :: rest | 'z' :: rest => some (0, rest)
    | sign :: h₁ :: h₂ :: rest =>
      if (sign = '+' ∨ sign = '-' ∨ sign = '−') ∧ h₁.isDigit ∧ h₂.isDigit then
        match rest.dropWhile (fun c => c = ':' || Text.isBlank c) with
        | m₁ :: m₂ :: rest =>
          if '0' ≤ m₁ ∧ m₁ ≤ '5' ∧ m₂.isDigit then
            let minutes : Nat :=
              Nat.ofDigitChars 10 [h₁, h₂] 0 * 60 + Nat.ofDigitChars 10 [m₁, m₂] 0
            some (if sign = '+' then minutes else -(minutes : Int), rest)
          else none
        | _ => none
      else none
    | _ => none

def ofChars? (cs : List Char) : Option Instant := do
  let (year, cs) ← year? cs
  let (month, cs) ← number? 2 (← skip? '-' cs)
  let (day, cs) ← number? 2 (← skip? '-' cs)
  let cs ← match cs with
    | c :: rest => if c = 'T' ∨ c = 't' ∨ c = ' ' then some rest else none
    | [] => none
  let (hour, cs) ← number? 2 cs
  let (minute, cs) ← number? 2 (← skip? ':' cs)
  let (second, cs) ← number? 2 (← skip? ':' cs)
  let (nanos, cs) ← nanos? cs
  let (offset, cs) ← offset? (trimStart cs)
  if trimStart cs ≠ [] then none
  else if second = 60 then ofLocal? ⟨year, month, day⟩ ⟨hour, minute, 59, nanos + 1000000000⟩ offset
  else ofLocal? ⟨year, month, day⟩ ⟨hour, minute, second, nanos⟩ offset

def ofText? (s : String) : Option Instant := ofChars? s.toList

end ReasonAct.Instant
