import ReasonAct.Json.Token
/-!
Reading JSON: a pushdown automaton over the tokens. Its stack holds the arrays and objects that
are still open, innermost first, so that no text exhausts it however deeply it nests.
-/
set_option autoImplicit false

namespace ReasonAct.Json

/-- An open array or object, what it holds so far latest first. `sound` is false once a key had
no text. -/
inductive Frame where
  | array (items : List Source)
  | object (fields : List (String × Source)) (key : String) (sound : Bool)

inductive Expect where
  | value
  | valueOrClose
  | keyOrClose
  | key
  | colon
  | commaOrClose

/-- How many arrays and objects may stand inside each other for their value to be read. -/
def nestingLimit : Nat := 127

def Frame.put (v : Source) : Frame → Frame
  | .array items => .array (v :: items)
  | .object fields key sound => .object ((key, v) :: fields) key sound

def Frame.rekey (key : Option String) : Frame → Frame
  | .array items => .array items
  | .object fields old sound => .object fields (key.getD old) (sound && key.isSome)

def Frame.close : Frame → Source
  | .array items => .array items.reverse
  | .object fields _ true => .object fields.reverse
  | .object _ _ false => .unreadable

inductive State where
  | awaiting (e : Expect) (stack : List Frame)
  | done (v : Source)

/-- A finished value is the whole text or goes into the innermost open frame. -/
def put (v : Source) : List Frame → State
  | [] => .done v
  | f :: outer => .awaiting .commaOrClose (f.put v :: outer)

/-- The value of a closed frame that stood inside fewer than `nestingLimit` others is kept; of
one deeper, only that it was there. -/
def close (f : Frame) (outer : List Frame) : State :=
  put (if (outer.drop (nestingLimit - 1)).isEmpty then f.close else .unreadable) outer

def beginValue : Token → List Frame → Option State
  | .openArray, stack => some (.awaiting .valueOrClose (.array [] :: stack))
  | .openObject, stack => some (.awaiting .keyOrClose (.object [] "" true :: stack))
  | .text s, stack => some (put ((s.map Source.string).getD .unreadable) stack)
  | .scalar v, stack => some (put v stack)
  | _, _ => none

def beginKey : Token → List Frame → Option State
  | .text s, f :: outer => some (.awaiting .colon (f.rekey s :: outer))
  | _, _ => none

def closing : Token → List Frame → Option State
  | .closeArray, .array items :: outer => some (close (.array items) outer)
  | .closeObject, .object fields key sound :: outer => some (close (.object fields key sound) outer)
  | _, _ => none

def advance (t : Token) : Expect → List Frame → Option State
  | .value, stack => beginValue t stack
  | .valueOrClose, stack => (closing t stack).or (beginValue t stack)
  | .keyOrClose, stack => (closing t stack).or (beginKey t stack)
  | .key, stack => beginKey t stack
  | .colon, stack =>
    match t with
    | .colon => some (.awaiting .value stack)
    | _ => none
  | .commaOrClose, stack =>
    match t, stack with
    | .comma, .array items :: outer => some (.awaiting .value (.array items :: outer))
    | .comma, .object fields key sound :: outer =>
      some (.awaiting .key (.object fields key sound :: outer))
    | t, stack => closing t stack

def build : List Token → State → Option Source
  | [], .done v => some v
  | t :: ts, .awaiting e stack => (advance t e stack).bind (build ts)
  | _, _ => none

def Source.parse? (s : String) : Option Source :=
  (tokens? s.toList).bind fun ts => build ts (.awaiting .value [])

def parse? (s : String) : Option Json := (Source.parse? s).bind Source.value?

end ReasonAct.Json
