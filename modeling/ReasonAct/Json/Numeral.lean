import ReasonAct.Decimal.Layout
import ReasonAct.Json.Basic
set_option autoImplicit false

namespace ReasonAct.Json

open Decimal

/-- Doubles in JSON: positional from `0.00001` up to sixteen places, with a sign on exponents. -/
def doubles : Layout := ⟨.even, -5, 16, true, true⟩

structure Numeral where
  negative : Bool
  whole : List Char
  /-- The figures after the point; none when there is no point. -/
  fraction : List Char
  exponent : Option Int
  deriving DecidableEq, Repr

def figures (cs : List Char) : List Char × List Char :=
  (cs.takeWhile Char.isDigit, cs.dropWhile Char.isDigit)

def natOf (ds : List Char) : Nat := Nat.ofDigitChars 10 ds 0

def exponent? (cs : List Char) : Option Int :=
  let (negative, cs) := match cs with
    | '-' :: rest => (true, rest)
    | '+' :: rest => (false, rest)
    | rest => (false, rest)
  let (ds, rest) := figures cs
  if ds.isEmpty || !rest.isEmpty then none
  else some (if negative then -(natOf ds : Int) else natOf ds)

def Numeral.tail? (negative : Bool) (whole : List Char) : List Char → Option Numeral
  | [] => some ⟨negative, whole, [], none⟩
  | '.' :: rest =>
    let (fraction, rest) := figures rest
    if fraction.isEmpty then none
    else match rest with
      | [] => some ⟨negative, whole, fraction, none⟩
      | e :: rest =>
        if e = 'e' ∨ e = 'E' then (exponent? rest).map (⟨negative, whole, fraction, some ·⟩)
        else none
  | e :: rest =>
    if e = 'e' ∨ e = 'E' then (exponent? rest).map (⟨negative, whole, [], some ·⟩) else none

/-- No figure is written before a leading zero. -/
def Numeral.ofChars? (cs : List Char) : Option Numeral :=
  let (negative, cs) := match cs with
    | '-' :: rest => (true, rest)
    | rest => (false, rest)
  let (whole, rest) := figures cs
  match whole with
  | [] => none
  | '0' :: _ :: _ => none
  | _ => Numeral.tail? negative whole rest

def Numeral.isWhole (n : Numeral) : Bool := n.fraction.isEmpty && n.exponent.isNone

def Numeral.double (n : Numeral) : Float :=
  let x := nearest (n.whole ++ n.fraction) (n.exponent.getD 0 - n.fraction.length)
  if n.negative then -x else x

/-- The number, unless it is beyond the doubles. Minus zero is a double. -/
def Numeral.number? (n : Numeral) : Option Number :=
  let m := natOf n.whole
  if n.isWhole && !n.negative && m < UInt64.size then some (.int m)
  else if n.isWhole && n.negative && 0 < m && 2 * m ≤ UInt64.size then some (.int (-m))
  else if n.double.isFinite then some (.float n.double)
  else none

def Number.chars : Number → List Char
  | .int n => intDigits n
  | .float x => doubles.chars x

end ReasonAct.Json
