import ReasonAct.Calculator.Grammar
set_option autoImplicit false

namespace ReasonAct.Calculator

open Decimal

def doubles : Arithmetic Float where
  add := (· + ·)
  sub := (· - ·)
  mul := (· * ·)
  div := (· / ·)
  mod := remainder
  pow := Float.pow
  neg := (- ·)
  isZero := (· == 0.0)
  isFinite := Float.isFinite

/-- A number inside a message: positional from `0.0001` up to sixteen places, half a unit up. -/
def quotedNumber : Layout := ⟨.up, -4, 16, true, false⟩

def Token.text : Token Float → String
  | .number x => "Num(" ++ quotedNumber.text x ++ ")"
  | .operator op => "Op('" ++ String.singleton op.char ++ "')"
  | .openParen => "Open"
  | .closeParen => "Close"

def Fault.message : Fault Float → String
  | .character c offset =>
    "unexpected character '" ++ String.singleton c ++ "' at " ++ toString offset
  | .literal run => "invalid number '" ++ run ++ "'"
  | .unexpected t => "unexpected " ++ t.text
  | .trailing t => "unexpected " ++ t.text ++ " after complete expression"
  | .unfinished => "unexpected end of expression"
  | .unclosed => "expected ')'"
  | .tooDeep => "expression nested too deeply"
  | .divisionByZero => "division by zero"
  | .notFinite => "result is not a finite number"

def literalValue (whole fraction : List Char) : Float :=
  nearest (whole ++ fraction) (-(fraction.length : Int))

def evaluate (s : String) : Except (Fault Float) Float := do
  value doubles (← tokens literalValue s)

end ReasonAct.Calculator
