import ReasonAct.Toml.Basic
import ReasonAct.Decimal.Layout
import ReasonAct.Text.Utf8
import ReasonAct.Time.Instant
set_option autoImplicit false

namespace ReasonAct.Toml

/-- Figures with single underscores between them, without the underscores. -/
def spaced? (digit : Char → Bool) : List Char → Option (List Char)
  | [] => none
  | [c] => if digit c then some [c] else none
  | c :: '_' :: rest => if digit c then (spaced? digit rest).map (c :: ·) else none
  | c :: rest => if digit c then (spaced? digit rest).map (c :: ·) else none

def isDigitBelow (base : Nat) (c : Char) : Bool := (Text.Utf8.hexValue? c).any (· < base)

def magnitude (base : Nat) (ds : List Char) : Nat :=
  ds.foldl (fun n c => n * base + (Text.Utf8.hexValue? c).getD 0) 0

/-- Integers have 64 bits and a sign. -/
def integerWithin? (n : Int) : Option Toml :=
  if Int64.minValue.toInt ≤ n ∧ n ≤ Int64.maxValue.toInt then some (.integer n) else none

/-- Figures without a zero in front. -/
def whole? (cs : List Char) : Option (List Char) :=
  match spaced? Char.isDigit cs with
  | some ('0' :: _ :: _) => none
  | r => r

def unsign (cs : List Char) : Bool × List Char :=
  match cs with
  | '-' :: rest => (true, rest)
  | '+' :: rest => (false, rest)
  | rest => (false, rest)

def integer? (cs : List Char) : Option Toml :=
  let based (base : Nat) (ds : List Char) : Option Toml :=
    (spaced? (isDigitBelow base) ds).bind fun ds => integerWithin? (magnitude base ds)
  match cs with
  | '0' :: 'x' :: ds => based 16 ds
  | '0' :: 'o' :: ds => based 8 ds
  | '0' :: 'b' :: ds => based 2 ds
  | cs =>
    let (negative, ds) := unsign cs
    (whole? ds).bind fun ds =>
      integerWithin? (if negative then -(magnitude 10 ds : Int) else magnitude 10 ds)

def isExponentMark (c : Char) : Bool := c = 'e' || c = 'E'

/-- A float is read for its form; one too large to be a double is none. -/
def float? (cs : List Char) : Option Toml :=
  let (negative, body) := unsign cs
  if body = ['i', 'n', 'f'] ∨ body = ['n', 'a', 'n'] then some .float
  else do
    let mantissa := body.takeWhile (!isExponentMark ·)
    let exponent ← match body.dropWhile (!isExponentMark ·) with
      | [] => some none
      | _ :: e =>
        let (below, ds) := unsign e
        (spaced? Char.isDigit ds).map fun ds =>
          some (if below then -(magnitude 10 ds : Int) else magnitude 10 ds)
    let whole ← whole? (mantissa.takeWhile (· ≠ '.'))
    let fraction ← match mantissa.dropWhile (· ≠ '.') with
      | [] => if exponent.isSome then some [] else none
      | _ :: f => spaced? Char.isDigit f
    let x := Decimal.nearest (whole ++ fraction) (exponent.getD 0 - fraction.length)
    if x.isInf && !negative then none else some .float

def fixed? (width : Nat) (cs : List Char) : Option (Nat × List Char) :=
  let ds := cs.take width
  if ds.length = width ∧ ds.all Char.isDigit then some (Nat.ofDigitChars 10 ds 0, cs.drop width)
  else none

def expect? (c : Char) : List Char → Option (List Char)
  | d :: rest => if d = c then some rest else none
  | [] => none

def date? (cs : List Char) : Option (List Char) := do
  let (year, cs) ← fixed? 4 cs
  let (month, cs) ← fixed? 2 (← expect? '-' cs)
  let (day, cs) ← fixed? 2 (← expect? '-' cs)
  if 1 ≤ month ∧ month ≤ 12 ∧ 1 ≤ day ∧ day ≤ Calendar.daysIn year month then some cs else none

def time? (cs : List Char) : Option (List Char) := do
  let (hour, cs) ← fixed? 2 cs
  let (minute, cs) ← fixed? 2 (← expect? ':' cs)
  let (second, cs) ← fixed? 2 (← expect? ':' cs)
  if 24 ≤ hour ∨ 60 ≤ minute ∨ 61 ≤ second then none
  else match cs with
    | '.' :: rest =>
      if rest.head?.any Char.isDigit then some (rest.dropWhile Char.isDigit) else none
    | rest => some rest

def isOffset (cs : List Char) : Bool :=
  match cs with
  | [] => true
  | ['Z'] | ['z'] => true
  | sign :: rest => (sign = '+' || sign = '-') && (do
      let (hour, cs) ← fixed? 2 rest
      let (minute, cs) ← fixed? 2 (← expect? ':' cs)
      pure (hour < 24 && minute < 60 && cs.isEmpty)).getD false

def isMoment (cs : List Char) : Bool :=
  match date? cs with
  | some [] => true
  | some (sep :: rest) =>
    (sep = 'T' || sep = 't' || sep = ' ') && ((time? rest).map isOffset).getD false
  | none => (time? cs).any (·.isEmpty)

def isRun (c : Char) : Bool :=
  c.isAlphanum || c = '+' || c = '-' || c = '_' || c = '.' || c = ':'

/-- A run, with the time of day that may follow a date after one space. -/
def run (cs : List Char) : List Char × List Char :=
  let first := cs.takeWhile isRun
  let rest := cs.dropWhile isRun
  match rest with
  | ' ' :: d :: more =>
    if d.isDigit && date? first = some [] then
      (first ++ ' ' :: (d :: more).takeWhile isRun, (d :: more).dropWhile isRun)
    else (first, rest)
  | _ => (first, rest)

def scalarOf? (cs : List Char) : Option Toml :=
  if cs = ['t', 'r', 'u', 'e'] then some (.boolean true)
  else if cs = ['f', 'a', 'l', 's', 'e'] then some (.boolean false)
  else if isMoment cs then some (.moment (String.ofList cs))
  else (integer? cs).or (float? cs)

def scalar? (cs : List Char) : Option (Toml × List Char) :=
  let (first, rest) := run cs
  (scalarOf? first).map (·, rest)

end ReasonAct.Toml
