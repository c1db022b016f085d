import ReasonAct.Text.Quoted
set_option autoImplicit false

namespace ReasonAct.Inspect

def list (items : List String) : String := "[" ++ String.intercalate ", " items ++ "]"

def record (name : String) (fields : List (String × String)) : String :=
  name ++ " \x7b " ++ String.intercalate ", " (fields.map fun (k, v) => k ++ ": " ++ v) ++ " \x7d"

def option : Option String → String
  | none => "None"
  | some s => "Some(" ++ s ++ ")"

def wrapped (name value : String) : String := name ++ "(" ++ value ++ ")"

end ReasonAct.Inspect
