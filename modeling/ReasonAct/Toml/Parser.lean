import ReasonAct.Toml.Quoted
import ReasonAct.Toml.Scalar
/-!
Reading TOML. A document is a list of statements, one a line: a pair or a header. The statements
are then carried out one after another on the tables.
-/
set_option autoImplicit false

namespace ReasonAct.Toml

abbrev Reader (α : Type) := List Char → Option (α × List Char)

def isCommentChar (c : Char) : Bool := isPrintable c

def skipGap (cs : List Char) : List Char := cs.dropWhile isGap

/-- Skips white space, line ends and comments; `comment` tells whether one is open. -/
def skipLines : Bool → List Char → Option (List Char)
  | _, [] => some []
  | comment, c :: cs =>
    if c = '\n' then skipLines false cs
    else if c = '\r' then if cs.head? = some '\n' then skipLines comment cs else none
    else if comment then if isCommentChar c then skipLines true cs else none
    else if isGap c then skipLines false cs
    else if c = '#' then skipLines true cs
    else some (c :: cs)

def lineEnd? (cs : List Char) : Option (List Char) :=
  let rest := match skipGap cs with
    | '#' :: comment => comment.dropWhile isCommentChar
    | rest => rest
  match rest with
  | [] => some []
  | '\n' :: rest => some rest
  | '\r' :: '\n' :: rest => some rest
  | _ => none

def isBare (c : Char) : Bool := c.isAlphanum || c = '_' || c = '-'

def key? (cs : List Char) : Option (String × List Char) :=
  match cs.takeWhile isBare with
  | [] => lineString? cs
  | bare => some (String.ofList bare, cs.dropWhile isBare)

/-- A dotted key; no more parts than rounds. -/
def keyPath? : Nat → Reader (List String)
  | 0, _ => none
  | rounds + 1, cs => do
    let (k, rest) ← key? (skipGap cs)
    match skipGap rest with
    | '.' :: rest => do
      let (path, rest) ← keyPath? rounds rest
      pure (k :: path, rest)
    | rest => pure ([k], rest)

/-- No key or value may nest deeper. -/
def nestingLimit : Nat := 79

def path? (cs : List Char) : Option (List String × List Char) := do
  let (path, rest) ← keyPath? cs.length cs
  if path.length ≤ nestingLimit then pure (path, rest) else none

/-- The elements of an array up to its end, latest first. -/
def elements? (value : Reader Toml) : Nat → List Toml → Reader (List Toml)
  | 0, _, _ => none
  | rounds + 1, out, cs => do
    match ← skipLines false cs with
    | ']' :: rest => pure (out.reverse, rest)
    | rest => do
      let (v, rest) ← value rest
      match ← skipLines false rest with
      | ',' :: rest => elements? value rounds (v :: out) rest
      | ']' :: rest => pure ((v :: out).reverse, rest)
      | _ => none

/-- The pairs between braces, on one line. -/
def pairs? (value : Reader Toml) : Nat → Entries → Reader Entries
  | 0, _, _ => none
  | rounds + 1, es, cs => do
    let (path, rest) ← path? cs
    let rest ← expect? '=' rest
    let (v, rest) ← value (skipGap rest)
    let es ← es.assign v path
    match skipGap rest with
    | ',' :: rest => pairs? value rounds es rest
    | '\x7d' :: rest => pure (es, rest)
    | _ => none

/-- A value in which so many arrays and tables may still open. -/
def value? : Nat → Reader Toml
  | room, '[' :: cs =>
    match room with
    | 0 => none
    | room + 1 =>
      (elements? (value? room) (cs.length + 1) [] cs).map fun (vs, rest) => (.array vs, rest)
  | room, '\x7b' :: cs =>
    match room with
    | 0 => none
    | room + 1 =>
      match skipGap cs with
      | '\x7d' :: rest => some (.table .inline [], rest)
      | _ => (pairs? (value? room) (cs.length + 1) [] cs).map
          fun (es, rest) => (.table .inline es, rest)
  | _, cs =>
    match cs.head? with
    | some '"' | some '\x27' => (string? cs).map fun (s, rest) => (.string s, rest)
    | _ => scalar? cs

inductive Statement where
  | pair (path : List String) (value : Toml)
  | header (path : List String)
  | listHeader (path : List String)

def statement? : List Char → Option (Statement × List Char)
  | '[' :: '[' :: cs => do
    let (path, rest) ← path? cs
    let rest ← lineEnd? (← expect? ']' (← expect? ']' rest))
    pure (.listHeader path, rest)
  | '[' :: cs => do
    let (path, rest) ← path? cs
    let rest ← lineEnd? (← expect? ']' rest)
    pure (.header path, rest)
  | cs => do
    let (path, rest) ← path? cs
    let (v, rest) ← value? nestingLimit (skipGap (← expect? '=' rest))
    let rest ← lineEnd? rest
    pure (.pair path v, rest)

/-- The statements of a text; each takes at least one character. -/
def statements? : Nat → List Statement → List Char → Option (List Statement)
  | 0, out, cs => if cs.isEmpty then some out.reverse else none
  | rounds + 1, out, cs => do
    match ← skipLines false cs with
    | [] => pure out.reverse
    | cs => do
      let (s, rest) ← statement? cs
      statements? rounds (s :: out) rest

/-- The tables so far, and the path of the one that takes the next pairs. -/
structure Assembly where
  root : Entries
  current : List String

def Assembly.add? (a : Assembly) : Statement → Option Assembly
  | .pair path v => do
    let root ← Entries.within (Entries.assign v path) a.current a.root
    pure { a with root }
  | .header path => do
    let root ← Entries.within (Entries.openTable (path.getLastD "")) path.dropLast a.root
    pure ⟨root, path⟩
  | .listHeader path => do
    let root ← Entries.within (Entries.openTables (path.getLastD "")) path.dropLast a.root
    pure ⟨root, path⟩

/-- A byte order mark at the start does not count. -/
def withoutMark : List Char → List Char
  | c :: cs => if c.toNat = 0xFEFF then cs else c :: cs
  | [] => []

def parse? (s : String) : Option Toml := do
  let cs := withoutMark s.toList
  let statements ← statements? (cs.length + 1) [] cs
  let a ← statements.foldlM Assembly.add? ⟨[], []⟩
  pure (.table .header a.root)

end ReasonAct.Toml
