import ReasonAct.Files.Path
import ReasonAct.Text.Utf8
/-!
Directories, files and symbolic links. `resolve` follows a path to the names of a place without
links, or says why there is none.
-/
set_option autoImplicit false

namespace ReasonAct

inductive FileNode where
  | file (bytes : List UInt8)
  | link (target : String)
  | directory (entries : List (String × FileNode))
  deriving Inhabited

inductive FileError where
  | notFound
  | notDirectory
  | isDirectory
  | tooManyLinks
  | nameTooLong
  | nulInPath
  deriving DecidableEq, Repr

def FileError.message : FileError → String
  | .notFound => "No such file or directory (os error 2)"
  | .notDirectory => "Not a directory (os error 20)"
  | .isDirectory => "Is a directory (os error 21)"
  | .tooManyLinks => "Too many levels of symbolic links (os error 40)"
  | .nameTooLong => "File name too long (os error 36)"
  | .nulInPath => "file name contained an unexpected NUL byte"

structure FileTree where
  root : FileNode
  current : List String
  deriving Inhabited

namespace FileNode

def child? (name : String) : FileNode → Option FileNode
  | .directory entries => entries.lookup name
  | _ => none

def at? : List String → FileNode → Option FileNode
  | [], n => some n
  | name :: names, n => (n.child? name).bind (at? names)

def put (node : FileNode) : List String → FileNode → FileNode
  | [], _ => node
  | name :: names, n =>
    let entries := match n with
      | .directory entries => entries
      | _ => []
    let inner := put node names ((entries.lookup name).getD (.directory []))
    .directory (entries.filter (·.1 ≠ name) ++ [(name, inner)])

end FileNode

namespace FileTree

def linkLimit : Nat := 40

def longestName : Nat := 255

/-- Goes along the pieces of a path from a place given by its names, the last one first.
`follow` goes on after a link. -/
def walk (t : FileTree) (follow : List (List Char) → List String → Except FileError (List String)) :
    List (List Char) → List String → Except FileError (List String)
  | [], place => .ok place
  | piece :: rest, place =>
    match t.root.at? place.reverse with
    | some (.directory entries) =>
      if piece = [] ∨ piece = Path.here then walk t follow rest place
      else if piece = Path.parent then walk t follow rest place.tail
      else
        let name := String.ofList piece
        if longestName < name.utf8ByteSize then .error .nameTooLong
        else match entries.lookup name with
          | none => .error .notFound
          | some (.link target) =>
            follow (Path.pieces target.toList ++ rest)
              (if Path.isAbsolute target then [] else place)
          | some _ => walk t follow rest (name :: place)
    | some _ => .error .notDirectory
    | none => .error .notFound

/-- Goes along a path in which so many links may still be met. -/
def follow (t : FileTree) : Nat → List (List Char) → List String → Except FileError (List String)
  | 0, pieces, place => t.walk (fun _ _ => .error .tooManyLinks) pieces place
  | links + 1, pieces, place => t.walk (t.follow links) pieces place

/-- The names from the root to what a path leads to, with no link among them. -/
def resolve (t : FileTree) (path : String) : Except FileError (List String) :=
  let cs := path.toList
  if cs.contains '\x00' then .error .nulInPath
  else if cs.isEmpty then .error .notFound
  else (t.follow linkLimit (Path.pieces cs)
    (if Path.isAbsolute path then [] else t.current.reverse)).map List.reverse

def pathOf (names : List String) : String := "/" ++ String.intercalate "/" names

def present (t : FileTree) (path : String) : Bool :=
  match t.resolve path with
  | .ok _ => true
  | .error _ => false

def read (t : FileTree) (path : String) : Except FileError (List UInt8) := do
  match t.root.at? (← t.resolve path) with
  | some (.file bytes) => .ok bytes
  | some _ => .error .isDirectory
  | none => .error .notFound

end FileTree
end ReasonAct
