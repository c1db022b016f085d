/-!
JSON values. An object is a list of members with distinct keys in code point order, so that two
texts of one value are read as the same term; `insert` keeps that order.
-/
set_option autoImplicit false

namespace ReasonAct

namespace Json

/-- An integer literal of at most 64 bits stays whole; every other number is a double. -/
inductive Number where
  | int (value : Int)
  | float (value : Float)
  deriving BEq, Inhabited

end Json

inductive Json where
  | null
  | bool (value : Bool)
  | number (value : Json.Number)
  | string (value : String)
  | array (items : List Json)
  | object (members : List (String × Json))
  deriving BEq, Inhabited

namespace Json

abbrev Members := List (String × Json)

def Members.insert (key : String) (value : Json) : Members → Members
  | [] => [(key, value)]
  | (k, v) :: rest =>
    if key < k then (key, value) :: (k, v) :: rest
    else if key = k then (key, value) :: rest
    else (k, v) :: Members.insert key value rest

/-- Of members with one key the last counts. -/
def Members.ofList (fields : List (String × Json)) : Members :=
  fields.foldl (fun ms f => Members.insert f.1 f.2 ms) []

def ofFields (fields : List (String × Json)) : Json := .object (Members.ofList fields)

def ofNat (n : Nat) : Json := .number (.int n)

def member? (key : String) : Json → Option Json
  | .object ms => ms.lookup key
  | _ => none

def member (key : String) (j : Json) : Json := (j.member? key).getD .null

def string? : Json → Option String
  | .string s => some s
  | _ => none

def array? : Json → Option (List Json)
  | .array xs => some xs
  | _ => none

def object? : Json → Option Members
  | .object ms => some ms
  | _ => none

def int? : Json → Option Int
  | .number (.int n) => some n
  | _ => none

def isNull : Json → Bool
  | .null => true
  | _ => false

end Json
end ReasonAct
