set_option autoImplicit false

namespace ReasonAct.Path

/-- The pieces between slashes; a slash at either end leaves an empty piece. -/
def pieces (path : List Char) : List (List Char) :=
  path.foldr (fun c ps =>
    if c = '/' then [] :: ps
    else match ps with
      | [] => [[c]]
      | p :: ps => (c :: p) :: ps) [[]]

def parent : List Char := ['.', '.']
def here : List Char := ['.']

def isAbsolute (path : String) : Bool := path.toList.head? = some '/'

/-- Whether some piece is `..`, whatever lies there. -/
def climbs (path : String) : Bool := (pieces path.toList).any (· = parent)

def join (directory path : String) : String :=
  if isAbsolute path then path
  else if directory.toList.getLast? = some '/' || directory.isEmpty then directory ++ path
  else directory ++ "/" ++ path

end ReasonAct.Path
