import ReasonAct.Json.Parser
import ReasonAct.Time.Rfc3339
/-!
Reading records. A record stands in JSON as an object with its fields in any order, others
ignored, or as an array of its fields in the declared order. A field that is known may not be
given twice.
-/
set_option autoImplicit false

namespace ReasonAct.Json

structure Record where
  fields : List (String × Source)
  positional : Bool

namespace Source

def record? (names : List String) : Source → Option Record
  | .object fields =>
    let known := fields.filter (·.1 ∈ names)
    if (known.map Prod.fst).Nodup then some ⟨known, false⟩ else none
  | .array items => if items.length ≤ names.length then some ⟨names.zip items, true⟩ else none
  | _ => none

def string? : Source → Option String
  | .string s => some s
  | _ => none

def bool? : Source → Option Bool
  | .bool b => some b
  | _ => none

def nat? : Source → Option Nat
  | .number (.int (.ofNat n)) => some n
  | _ => none

def uint64? (s : Source) : Option UInt64 :=
  s.nat?.bind fun n => if n < UInt64.size then some (UInt64.ofNat n) else none

def uint32? (s : Source) : Option UInt32 :=
  s.nat?.bind fun n => if n < UInt32.size then some (UInt32.ofNat n) else none

def instant? (s : Source) : Option Instant := s.string?.bind Instant.ofText?

def list? {α : Type} (read : Source → Option α) : Source → Option (List α)
  | .array items => items.mapM read
  | _ => none

/-- A name without data: a string, or an object whose one member has that key and is null. -/
def name? : Source → Option String
  | .string s => some s
  | .object [(s, .null)] => some s
  | _ => none

def instant (i : Instant) : Source := .string i.text

def uint64 (n : UInt64) : Source := .nat n.toNat

def uint32 (n : UInt32) : Source := .nat n.toNat

end Source

namespace Record

variable {α : Type}

def get? (r : Record) (name : String) : Option Source := r.fields.lookup name

def required (r : Record) (name : String) (read : Source → Option α) : Option α :=
  (r.get? name).bind read

def defaulted (r : Record) (name : String) (value : α) (read : Source → Option α) : Option α :=
  match r.get? name with
  | none => some value
  | some s => read s

/-- Absent or null gives none. -/
def optional (r : Record) (name : String) (read : Source → Option α) : Option (Option α) :=
  match r.get? name with
  | none => some none
  | some .null => some none
  | some s => (read s).map some

/-- Like `optional`, but by position the place must be there. -/
def nullable (r : Record) (name : String) (read : Source → Option α) : Option (Option α) :=
  if (r.get? name).isNone && r.positional then none else r.optional name read

end Record

/-- A field that is written only when it has a value. -/
def given {α : Type} (name : String) (write : α → Source) : Option α → List (String × Source)
  | none => []
  | some x => [(name, write x)]

/-- A list that is written only when it is not empty. -/
def listed {α : Type} (name : String) (write : α → Source) : List α → List (String × Source)
  | [] => []
  | xs => [(name, .array (xs.map write))]

namespace Source

/-- A record that names its kind in the field `type`, or first of all in an array. All of it is
read before the kind is known, so nothing in it may be unreadable. -/
def tagged? : Source → Option (String × Source)
  | .object fields =>
    match fields.filter (·.1 = "type") with
    | [(_, .string kind)] =>
      if (value? (.object fields)).isSome then
        some (kind, .object (fields.filter (·.1 ≠ "type")))
      else none
    | _ => none
  | .array (.string kind :: rest) =>
    if (value? (.array rest)).isSome then some (kind, .array rest) else none
  | _ => none

/-- Inside a record that names its kind, the data of a bare name may also be an empty object. -/
def innerName? : Source → Option String
  | .object [(s, .object [])] => some s
  | s => s.name?

end Source

end ReasonAct.Json
