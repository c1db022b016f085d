import ReasonAct.Decimal.Shortest
/-!
Decimal text. A `Layout` holds the choices of one format: which magnitudes are written
positionally, how the rest write their exponent, and where an exact half goes.
-/
set_option autoImplicit false

namespace ReasonAct.Decimal

structure Layout where
  tie : Tie
  /-- Positional when the point `p` in `0.d₁d₂… · 10 ^ p` has `fixedAbove < p ≤ fixedUpTo`. -/
  fixedAbove : Int
  fixedUpTo : Int
  /-- Whether a whole number carries `.0` in positional form. -/
  pointZero : Bool
  /-- Whether an exponent that is not negative carries `+`. -/
  plus : Bool
  deriving DecidableEq, Repr

def zeros (n : Nat) : List Char := List.replicate n '0'

def natDigits (n : Nat) : List Char := Nat.toDigits 10 n

def intDigits (n : Int) : List Char :=
  if n < 0 then '-' :: natDigits n.natAbs else natDigits n.natAbs

def Layout.positional (l : Layout) (ds : List Char) (p : Int) : List Char :=
  if p ≤ 0 then '0' :: '.' :: (zeros (-p).toNat ++ ds)
  else if p.toNat < ds.length then ds.take p.toNat ++ '.' :: ds.drop p.toNat
  else ds ++ zeros (p.toNat - ds.length) ++ if l.pointZero then ['.', '0'] else []

def Layout.scientific (l : Layout) (ds : List Char) (p : Int) : List Char :=
  let mantissa := match ds with
    | d :: f :: rest => d :: '.' :: f :: rest
    | short => short
  let mark := if l.plus && 1 ≤ p then ['e', '+'] else ['e']
  mantissa ++ mark ++ intDigits (p - 1)

def Layout.scaled (l : Layout) (s : Scaled) : List Char :=
  let ds := natDigits s.digits
  let p := if s.digits = 0 then 1 else s.exponent + ds.length
  if l.fixedAbove < p && p ≤ l.fixedUpTo then l.positional ds p else l.scientific ds p

def Layout.chars (l : Layout) (x : Float) : List Char :=
  match reading x with
  | .nan => ['N', 'a', 'N']
  | .infinite negative => (if negative then ['-'] else []) ++ ['i', 'n', 'f']
  | .finite negative b => (if negative then ['-'] else []) ++ l.scaled (b.shortest l.tie)

def Layout.text (l : Layout) (x : Float) : String := String.ofList (l.chars x)

/-- The double nearest to `digits · 10 ^ exponent`, where `digits` is given by its decimal
figures. Far outside the range of doubles the power of ten is not worked out. -/
def nearest (figures : List Char) (exponent : Int) : Float :=
  let figures := figures.dropWhile (· == '0')
  let magnitude := (figures.length : Int) + exponent
  if figures.isEmpty || magnitude < -400 then 0.0
  else if 400 < magnitude then 1.0 / 0.0
  else Float.ofScientific (Nat.ofDigitChars 10 figures 0) (exponent < 0) exponent.natAbs

end ReasonAct.Decimal
