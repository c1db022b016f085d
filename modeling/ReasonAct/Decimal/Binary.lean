/-!
Doubles by their parts: a finite double is a whole number of binary units. `remainder` is exact,
because it stays within the units of its two arguments.
-/
set_option autoImplicit false

namespace ReasonAct.Decimal

structure Binary where
  significand : Nat
  exponent : Int
  deriving DecidableEq, Repr

inductive Reading where
  | nan
  | infinite (negative : Bool)
  | finite (negative : Bool) (magnitude : Binary)
  deriving DecidableEq, Repr

def fractionBits : Nat := Nat.pow 2 52
def exponentBits : Nat := Nat.pow 2 11
def lowestExponent : Int := -1074

def Reading.ofBits (bits : Nat) : Reading :=
  let fraction := bits % fractionBits
  let exponent := bits / fractionBits % exponentBits
  let negative := bits / fractionBits / exponentBits == 1
  if exponent == exponentBits - 1 then
    if fraction == 0 then .infinite negative else .nan
  else if exponent == 0 then .finite negative ⟨fraction, lowestExponent⟩
  else .finite negative ⟨fraction + fractionBits, lowestExponent + (exponent - 1 : Nat)⟩

def reading (x : Float) : Reading := Reading.ofBits x.toBits.toNat

/-- A double from its parts; the significand has at most 53 bits. -/
def ofBinary (negative : Bool) (b : Binary) : Float :=
  let x := (Float.ofNat b.significand).scaleB b.exponent
  if negative then -x else x

def Binary.remainder (a b : Binary) : Binary :=
  let unit := min a.exponent b.exponent
  let m := a.significand * Nat.pow 2 (a.exponent - unit).toNat
  let n := b.significand * Nat.pow 2 (b.exponent - unit).toNat
  ⟨m % n, unit⟩

def notANumber : Float := 0.0 / 0.0

/-- The remainder of the quotient rounded toward zero; it has the sign of the dividend. -/
def remainder (x y : Float) : Float :=
  match reading x, reading y with
  | .finite negative a, .finite _ b =>
    if b.significand = 0 then notANumber else ofBinary negative (a.remainder b)
  | .finite _ _, .infinite _ => x
  | _, _ => notANumber

end ReasonAct.Decimal
