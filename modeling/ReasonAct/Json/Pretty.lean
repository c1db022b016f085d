import ReasonAct.Json.Source
set_option autoImplicit false

namespace ReasonAct.Json.Source

def newLine (depth : Nat) : List Char := '\n' :: List.replicate (2 * depth) ' '

mutual

def pretty (depth : Nat) : Source → List Char
  | .array [] => ['[', ']']
  | .array (x :: xs) =>
    '[' :: (newLine (depth + 1) ++ x.pretty (depth + 1) ++ prettyItems depth xs ++
      newLine depth ++ [']'])
  | .object [] => ['{', '}']
  | .object (f :: fs) => '{' :: (newLine (depth + 1) ++ prettyField depth f ++
      prettyFields depth fs ++ newLine depth ++ ['}'])
  | s => s.chars

def prettyItems (depth : Nat) : List Source → List Char
  | [] => []
  | x :: xs => ',' :: (newLine (depth + 1) ++ x.pretty (depth + 1) ++ prettyItems depth xs)

def prettyField (depth : Nat) : String × Source → List Char
  | (k, x) => quoted k ++ ':' :: ' ' :: x.pretty (depth + 1)

def prettyFields (depth : Nat) : List (String × Source) → List Char
  | [] => []
  | f :: fs => ',' :: (newLine (depth + 1) ++ prettyField depth f ++ prettyFields depth fs)

end

end ReasonAct.Json.Source
