import ReasonAct.Decimal.Binary
/-!
The fewest decimal digits that read back as the same double. All is exact arithmetic on the
interval of reals that round to the double: for one digit, two, and so on, the two neighbours of
the value on that decimal grid are tried, and the nearer one inside the interval wins.
-/
set_option autoImplicit false

namespace ReasonAct.Decimal

structure Scaled where
  digits : Nat
  exponent : Int
  deriving DecidableEq, Repr

inductive Tie where
  | even
  | up
  deriving DecidableEq, Repr

/-- A quotient of natural numbers, for comparing reals without rounding. -/
structure Quotient where
  num : Nat
  den : Nat
  deriving DecidableEq, Repr

def Quotient.power (base : Nat) (e : Int) (n : Nat) : Quotient :=
  if e < 0 then ⟨n, base.pow (-e).toNat⟩ else ⟨n * base.pow e.toNat, 1⟩

def Quotient.lt (a b : Quotient) : Bool := a.num * b.den < b.num * a.den
def Quotient.le (a b : Quotient) : Bool := a.num * b.den ≤ b.num * a.den

/-- The reals that round to a double: the ends are half a unit away, a quarter unit below a
power of two, and belong to it when its significand is even. -/
structure Interval where
  low : Quotient
  high : Quotient
  closed : Bool

def Binary.interval (b : Binary) : Interval :=
  let below := if b.significand = fractionBits ∧ lowestExponent < b.exponent then 1 else 2
  ⟨.power 2 (b.exponent - 2) (4 * b.significand - below),
   .power 2 (b.exponent - 2) (4 * b.significand + 2), b.significand % 2 = 0⟩

def Interval.contains (i : Interval) (q : Quotient) : Bool :=
  if i.closed then i.low.le q && q.le i.high else i.low.lt q && q.lt i.high

def Scaled.value (s : Scaled) : Quotient := .power 10 s.exponent s.digits

/-- The least power of ten above a positive quotient, searched from `e` upward. -/
def pointAbove (q : Quotient) : Nat → Int → Int
  | 0, e => e
  | fuel + 1, e => if q.lt (.power 10 e 1) then e else pointAbove q fuel (e + 1)

/-- Where the decimal point stands: `10 ^ (p - 1) ≤ value < 10 ^ p`. A binary logarithm gives a
start at most one below. -/
def Binary.point (b : Binary) : Int :=
  let log := (b.significand.log2 : Int) + b.exponent
  pointAbove (.power 2 b.exponent b.significand) 4 (Int.fdiv (log * 30103) 100000 - 1)

/-- The neighbours of the value on the grid of multiples of `10 ^ e`, and which is nearer. -/
def Binary.onGrid (b : Binary) (tie : Tie) (e : Int) : Option Scaled :=
  let v := Quotient.power 2 b.exponent b.significand
  let unit := Quotient.power 10 e 1
  let k := v.num * unit.den / (v.den * unit.num)
  let down : Scaled := ⟨k, e⟩
  let up : Scaled := ⟨k + 1, e⟩
  let i := b.interval
  match i.contains down.value, i.contains up.value with
  | false, false => none
  | true, false => some down
  | false, true => some up
  | true, true =>
    let twice : Quotient := ⟨2 * v.num, v.den⟩
    let middle := Scaled.value ⟨2 * k + 1, e⟩
    if twice.lt middle then some down
    else if middle.lt twice then some up
    else match tie with
      | .up => some up
      | .even => if k % 2 = 0 then some down else some up

def Binary.search (b : Binary) (tie : Tie) (point : Int) : Nat → Nat → Scaled
  | 0, n => ⟨b.significand, n⟩
  | fuel + 1, n =>
    match b.onGrid tie (point - n) with
    | some s => s
    | none => b.search tie point fuel (n + 1)

/-- Drops the zeros at the end of the digits, which a neighbour rounded up to a power of ten has. -/
def Scaled.trim : Nat → Scaled → Scaled
  | 0, s => s
  | fuel + 1, s =>
    if s.digits % 10 = 0 ∧ s.digits ≠ 0 then Scaled.trim fuel ⟨s.digits / 10, s.exponent + 1⟩ else s

/-- Seventeen digits always suffice. -/
def Binary.shortest (b : Binary) (tie : Tie) : Scaled :=
  if b.significand = 0 then ⟨0, 0⟩ else (b.search tie b.point 18 1).trim 20

end ReasonAct.Decimal
