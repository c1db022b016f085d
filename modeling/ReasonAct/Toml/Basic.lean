import ReasonAct.Json.Source
/-!
TOML documents. A table remembers how it came to be, because that decides what may still be added
to it.
-/
set_option autoImplicit false

namespace ReasonAct

namespace Toml

inductive Origin where
  /-- Named by a header of its own. -/
  | header
  /-- Passed through by the header of a table inside it. -/
  | implied
  /-- Passed through by a dotted key. -/
  | dotted
  /-- Written between braces, and complete. -/
  | inline
  deriving DecidableEq, Repr

end Toml

inductive Toml where
  | string (value : String)
  | integer (value : Int)
  | float
  | boolean (value : Bool)
  | moment (text : String)
  | array (items : List Toml)
  | table (origin : Toml.Origin) (entries : List (String × Toml))
  /-- An array of tables, the last one first. -/
  | tables (items : List (List (String × Toml)))
  deriving Inhabited

namespace Toml

abbrev Entries := List (String × Toml)

def Entries.replace (key : String) (v : Toml) : Entries → Entries
  | [] => []
  | (k, w) :: rest => if k = key then (k, v) :: rest else (k, w) :: Entries.replace key v rest

/-- The entries whose key stands on a path, as a header finds them: missing tables are made, and
of an array of tables the last is meant. -/
def Entries.within (f : Entries → Option Entries) : List String → Entries → Option Entries
  | [], es => f es
  | k :: path, es =>
    match es.lookup k with
    | none => do
      let inner ← Entries.within f path []
      pure (es ++ [(k, .table .implied inner)])
    | some (.table origin inner) =>
      if origin = .inline then none
      else do
        let inner ← Entries.within f path inner
        pure (es.replace k (.table origin inner))
    | some (.tables (last :: others)) => do
      let last ← Entries.within f path last
      pure (es.replace k (.tables (last :: others)))
    | some _ => none

/-- Adds a value under a dotted key. Tables with a header of their own, or between braces, stay
as they are, and the table that takes the value is one that only dotted keys have made. -/
def Entries.assign (v : Toml) : List String → Entries → Option Entries
  | [], _ => none
  | [k], es => if (es.lookup k).isSome then none else some (es ++ [(k, v)])
  | k :: next :: path, es =>
    match es.lookup k with
    | none => do
      let inner ← Entries.assign v (next :: path) []
      pure (es ++ [(k, .table .dotted inner)])
    | some (.table origin inner) =>
      if origin = .dotted ∨ origin = .implied ∧ path ≠ [] then do
        let inner ← Entries.assign v (next :: path) inner
        pure (es.replace k (.table origin inner))
      else none
    | some (.tables (last :: others)) =>
      if path = [] then none
      else do
        let last ← Entries.assign v (next :: path) last
        pure (es.replace k (.tables (last :: others)))
    | some _ => none

/-- Opens the table of a header; one that was only passed through may still be opened. -/
def Entries.openTable (key : String) (es : Entries) : Option Entries :=
  match es.lookup key with
  | none => some (es ++ [(key, .table .header [])])
  | some (.table .implied inner) => some (es.replace key (.table .header inner))
  | some _ => none

def Entries.openTables (key : String) (es : Entries) : Option Entries :=
  match es.lookup key with
  | none => some (es ++ [(key, .tables [[]])])
  | some (.tables items) => some (es.replace key (.tables ([] :: items)))
  | some _ => none

mutual

/-- The same data as JSON holds it; a moment is an object, which no text or number is. -/
def source : Toml → Json.Source
  | .string s => .string s
  | .integer n => .number (.int n)
  | .float => .unreadable
  | .boolean b => .bool b
  | .moment s => .object [("moment", .string s)]
  | .array items => .array (sourceItems items)
  | .table _ entries => .object (sourceEntries entries)
  | .tables items => .array (sourceTables items).reverse

def sourceItems : List Toml → List Json.Source
  | [] => []
  | x :: xs => x.source :: sourceItems xs

def sourceEntries : List (String × Toml) → List (String × Json.Source)
  | [] => []
  | (k, x) :: xs => (k, x.source) :: sourceEntries xs

def sourceTables : List (List (String × Toml)) → List Json.Source
  | [] => []
  | x :: xs => .object (sourceEntries x) :: sourceTables xs

end

end Toml
end ReasonAct
