import ReasonAct.Decimal.Layout
import ReasonAct.Text.Blank
set_option autoImplicit false

namespace ReasonAct.Calculator

inductive Operator where
  | plus
  | minus
  | times
  | divide
  | modulo
  | power
  deriving DecidableEq, Repr

def Operator.char : Operator → Char
  | .plus => '+'
  | .minus => '-'
  | .times => '*'
  | .divide => '/'
  | .modulo => '%'
  | .power => '^'

def Operator.ofChar? (c : Char) : Option Operator :=
  [.plus, .minus, .times, .divide, .modulo, .power].find? (·.char = c)

inductive Token (α : Type) where
  | number (value : α)
  | operator (op : Operator)
  | openParen
  | closeParen
  deriving DecidableEq, Repr

inductive Fault (α : Type) where
  | character (c : Char) (offset : Nat)
  | literal (run : String)
  | unexpected (t : Token α)
  | trailing (t : Token α)
  | unfinished
  | unclosed
  | tooDeep
  | divisionByZero
  | notFinite
  deriving DecidableEq, Repr

def isRun (c : Char) : Bool := c.isDigit || c = '.'

/-- The figures before and after the point of a well-formed run. -/
def literal? (run : List Char) : Option (List Char × List Char) :=
  let whole := run.takeWhile Char.isDigit
  match run.dropWhile Char.isDigit with
  | [] => if whole.isEmpty then none else some (whole, [])
  | _ :: fraction =>
    if fraction.all Char.isDigit && !(whole.isEmpty && fraction.isEmpty) then some (whole, fraction)
    else none

/-- The number between two other characters: the run so far, latest first. -/
def closeRun {α : Type} (value : List Char → List Char → α) (run : List Char)
    (out : List (Token α)) : Except (Fault α) (List (Token α)) :=
  if run.isEmpty then .ok out
  else match literal? run.reverse with
    | some (whole, fraction) => .ok (.number (value whole fraction) :: out)
    | none => .error (.literal (String.ofList run.reverse))

/-- One pass with the offset in bytes, the open run and the tokens so far, latest first. -/
def scanFrom {α : Type} (value : List Char → List Char → α) :
    List Char → Nat → List Char → List (Token α) → Except (Fault α) (List (Token α))
  | [], _, run, out => closeRun value run out
  | c :: cs, offset, run, out =>
    let next := offset + c.utf8Size
    if isRun c then scanFrom value cs next (c :: run) out
    else match closeRun value run out with
      | .error e => .error e
      | .ok out =>
        if Text.isBlank c then scanFrom value cs next [] out
        else match Operator.ofChar? c with
          | some op => scanFrom value cs next [] (.operator op :: out)
          | none =>
            if c = '(' then scanFrom value cs next [] (.openParen :: out)
            else if c = ')' then scanFrom value cs next [] (.closeParen :: out)
            else .error (.character c offset)

def tokens {α : Type} (value : List Char → List Char → α) (s : String) :
    Except (Fault α) (List (Token α)) :=
  (scanFrom value s.toList 0 [] []).map List.reverse

end ReasonAct.Calculator
