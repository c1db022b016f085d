import ReasonAct.Json.Source
/-!
The tokens of a JSON text, in one pass over its characters. The scanner carries what it is in
the middle of: nothing, a string, a numeral or a word.
-/
set_option autoImplicit false

namespace ReasonAct.Json

inductive Token where
  | openArray
  | closeArray
  | openObject
  | closeObject
  | comma
  | colon
  /-- None when the escapes do not pair up to characters. -/
  | text (value : Option String)
  | scalar (value : Source)

/-- A string under way: its characters, latest first; a leading half of a surrogate pair that
waits for the other; and whether all halves so far were paired. -/
structure Quoting where
  chars : List Char
  half : Option Nat
  paired : Bool

namespace Quoting

def empty : Quoting := ⟨[], none, true⟩

def char (q : Quoting) (c : Char) : Quoting := ⟨c :: q.chars, none, q.paired && q.half.isNone⟩

/-- Takes a code unit of sixteen bits written as an escape. -/
def unit (q : Quoting) (n : Nat) : Quoting :=
  if 0xD800 ≤ n && n < 0xDC00 then ⟨q.chars, some n, q.paired && q.half.isNone⟩
  else if 0xDC00 ≤ n && n < 0xE000 then
    match q.half with
    | some h =>
      ⟨Char.ofNat (0x10000 + (h - 0xD800) * 0x400 + (n - 0xDC00)) :: q.chars, none, q.paired⟩
    | none => ⟨q.chars, none, false⟩
  else q.char (Char.ofNat n)

def finish (q : Quoting) : Token :=
  .text (if q.paired && q.half.isNone then some (String.ofList q.chars.reverse) else none)

end Quoting

inductive Scan where
  | between
  | quoting (q : Quoting)
  | escape (q : Quoting)
  /-- The four figures of a code unit: how many are still to come, and their value so far. -/
  | unit (q : Quoting) (left value : Nat)
  | numeral (cs : List Char)
  | word (cs : List Char)

def escaped? (c : Char) : Option Char :=
  match c with
  | '"' => some '"'
  | '\\' => some '\\'
  | '/' => some '/'
  | 'b' => some '\x08'
  | 'f' => some '\x0c'
  | 'n' => some '\n'
  | 'r' => some '\r'
  | 't' => some '\t'
  | _ => none

def hexDigit? (c : Char) : Option Nat :=
  let n := c.toNat
  if 48 ≤ n && n ≤ 57 then some (n - 48)
  else if 97 ≤ n && n ≤ 102 then some (n - 87)
  else if 65 ≤ n && n ≤ 70 then some (n - 55)
  else none

def isSpace (c : Char) : Bool := c = ' ' || c = '\t' || c = '\n' || c = '\r'

def isNumeral (c : Char) : Bool :=
  c.isDigit || c = '-' || c = '+' || c = '.' || c = 'e' || c = 'E'

def numeralToken? (cs : List Char) : Option Token :=
  (Numeral.ofChars? cs).map fun n => .scalar ((n.number?.map Source.number).getD .unreadable)

def wordToken? (cs : List Char) : Option Token :=
  if cs = ['n', 'u', 'l', 'l'] then some (.scalar .null)
  else if cs = ['t', 'r', 'u', 'e'] then some (.scalar (.bool true))
  else if cs = ['f', 'a', 'l', 's', 'e'] then some (.scalar (.bool false))
  else none

def begin? (c : Char) (out : List Token) : Option (Scan × List Token) :=
  if isSpace c then some (.between, out)
  else match c with
    | '[' => some (.between, .openArray :: out)
    | ']' => some (.between, .closeArray :: out)
    | '\x7b' => some (.between, .openObject :: out)
    | '\x7d' => some (.between, .closeObject :: out)
    | ',' => some (.between, .comma :: out)
    | ':' => some (.between, .colon :: out)
    | '"' => some (.quoting .empty, out)
    | c =>
      if c.isDigit || c = '-' then some (.numeral [c], out)
      else if c.isAlpha then some (.word [c], out)
      else none

/-- The tokens so far, latest first, and what is under way after one more character. -/
def step (c : Char) (out : List Token) : Scan → Option (Scan × List Token)
  | .between => begin? c out
  | .quoting q =>
    if c = '"' then some (.between, q.finish :: out)
    else if c = '\\' then some (.escape q, out)
    else if c.toNat < 0x20 then none
    else some (.quoting (q.char c), out)
  | .escape q =>
    if c = 'u' then some (.unit q 4 0, out)
    else (escaped? c).map fun d => (.quoting (q.char d), out)
  | .unit q left value => do
    let n := value * 16 + (← hexDigit? c)
    if left ≤ 1 then pure (.quoting (q.unit n), out) else pure (.unit q (left - 1) n, out)
  | .numeral cs =>
    if isNumeral c then some (.numeral (c :: cs), out)
    else (numeralToken? cs.reverse).bind fun t => begin? c (t :: out)
  | .word cs =>
    if c.isAlpha then some (.word (c :: cs), out)
    else (wordToken? cs.reverse).bind fun t => begin? c (t :: out)

def finish? (out : List Token) : Scan → Option (List Token)
  | .between => some out
  | .numeral cs => (numeralToken? cs.reverse).map (· :: out)
  | .word cs => (wordToken? cs.reverse).map (· :: out)
  | _ => none

def scanFrom : List Char → Scan → List Token → Option (List Token)
  | [], s, out => finish? out s
  | c :: cs, s, out =>
    match step c out s with
    | some (s, out) => scanFrom cs s out
    | none => none

def tokens? (cs : List Char) : Option (List Token) := (scanFrom cs .between []).map List.reverse

end ReasonAct.Json
