import ReasonAct.Json.Numeral
/-!
JSON as it is written: members in the order of the text, with repeated keys. `unreadable` marks a
piece of well-formed text without a value: an unpaired surrogate, a number beyond the doubles, or
nesting past the limit. Only a reader that skips the piece gets by.
-/
set_option autoImplicit false

namespace ReasonAct.Json

inductive Source where
  | unreadable
  | null
  | bool (value : Bool)
  | number (value : Number)
  | string (value : String)
  | array (items : List Source)
  | object (fields : List (String × Source))
  deriving Inhabited

namespace Source

def quotedChar (c : Char) : List Char :=
  if c = '"' then ['\\', '"']
  else if c = '\\' then ['\\', '\\']
  else if c = '\n' then ['\\', 'n']
  else if c = '\r' then ['\\', 'r']
  else if c = '\t' then ['\\', 't']
  else if c = '\x08' then ['\\', 'b']
  else if c = '\x0c' then ['\\', 'f']
  else if c.toNat < 0x20 then
    ['\\', 'u', '0', '0', Nat.digitChar (c.toNat / 16), Nat.digitChar (c.toNat % 16)]
  else [c]

def quoted (s : String) : List Char := '"' :: s.toList.flatMap quotedChar ++ ['"']

mutual

def chars : Source → List Char
  | .unreadable | .null => ['n', 'u', 'l', 'l']
  | .bool true => ['t', 'r', 'u', 'e']
  | .bool false => ['f', 'a', 'l', 's', 'e']
  | .number n => n.chars
  | .string s => quoted s
  | .array [] => ['[', ']']
  | .array (x :: xs) => '[' :: (x.chars ++ charsItems xs)
  | .object [] => ['{', '}']
  | .object ((k, x) :: xs) => '{' :: (quoted k ++ ':' :: (x.chars ++ charsFields xs))

def charsItems : List Source → List Char
  | [] => [']']
  | x :: xs => ',' :: (x.chars ++ charsItems xs)

def charsFields : List (String × Source) → List Char
  | [] => ['}']
  | (k, x) :: xs => ',' :: (quoted k ++ ':' :: (x.chars ++ charsFields xs))

end

def text (s : Source) : String := String.ofList s.chars

mutual

/-- The value the text stands for: of repeated keys the last counts. -/
def value? : Source → Option Json
  | .unreadable => none
  | .null => some .null
  | .bool b => some (.bool b)
  | .number n => some (.number n)
  | .string s => some (.string s)
  | .array xs => (valueItems? xs).map .array
  | .object fs => (valueFields? fs).map Json.ofFields

def valueItems? : List Source → Option (List Json)
  | [] => some []
  | x :: xs => do
    let v ← x.value?
    let vs ← valueItems? xs
    pure (v :: vs)

def valueFields? : List (String × Source) → Option (List (String × Json))
  | [] => some []
  | (k, x) :: xs => do
    let v ← x.value?
    let vs ← valueFields? xs
    pure ((k, v) :: vs)

end

def nat (n : Nat) : Source := .number (.int n)

end Source

mutual

def source : Json → Source
  | .null => .null
  | .bool b => .bool b
  | .number n => .number n
  | .string s => .string s
  | .array xs => .array (sourceItems xs)
  | .object ms => .object (sourceMembers ms)

def sourceItems : List Json → List Source
  | [] => []
  | x :: xs => x.source :: sourceItems xs

def sourceMembers : List (String × Json) → List (String × Source)
  | [] => []
  | (k, x) :: xs => (k, x.source) :: sourceMembers xs

end

/-- Compact text with sorted keys. -/
def text (j : Json) : String := j.source.text

end ReasonAct.Json
