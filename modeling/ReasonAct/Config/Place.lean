import ReasonAct.Config.Basic
import ReasonAct.Files.Tree
set_option autoImplicit false

namespace ReasonAct

/-- A place that cannot be reached counts as missing, whatever the reason. -/
def FileTree.config (t : FileTree) (path : String) : Config.Found :=
  if t.present path then
    match t.read path with
    | .error e => .failed e.message
    | .ok bytes =>
      match Text.Utf8.decode? bytes with
      | none => .failed "stream did not contain valid UTF-8"
      | some s => .text s
  else .missing

namespace Config

def homeVariable : String := "HOME"

def directory (lookup : String → Option String) : String :=
  Path.join ((lookup homeVariable).getD "/tmp") ".ferroact"

def standardPath (lookup : String → Option String) : String :=
  Path.join (directory lookup) "config.toml"

end Config
end ReasonAct
