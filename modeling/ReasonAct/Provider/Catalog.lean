set_option autoImplicit false

namespace ReasonAct

structure Catalog (α : Type) where
  defaultName : String
  entries : List (String × α)

namespace Catalog

variable {α : Type}

def empty (defaultName : String) : Catalog α := ⟨defaultName, []⟩

def insertEntry (name : String) (p : α) : List (String × α) → List (String × α)
  | [] => [(name, p)]
  | (n, q) :: rest =>
    if name < n then (name, p) :: (n, q) :: rest
    else if name = n then (name, p) :: rest
    else (n, q) :: insertEntry name p rest

/-- A provider of the same name is replaced. -/
def register (name : String) (p : α) (c : Catalog α) : Catalog α :=
  { c with entries := insertEntry name p c.entries }

def get? (c : Catalog α) (name : String) : Option α := c.entries.lookup name

def default? (c : Catalog α) : Option α := c.get? c.defaultName

def names (c : Catalog α) : List String := c.entries.map Prod.fst

def size (c : Catalog α) : Nat := c.entries.length

end Catalog
end ReasonAct
