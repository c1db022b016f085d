import ReasonAct.Text.Printable
set_option autoImplicit false

namespace ReasonAct.Text

def hexDigits (n : Nat) : List Char := Nat.toDigits 16 n

/-- A character that would not show is written by its code point. -/
def shownChar (c : Char) : List Char :=
  if c = '"' then ['\\', '"']
  else if c = '\\' then ['\\', '\\']
  else if c = '\n' then ['\\', 'n']
  else if c = '\r' then ['\\', 'r']
  else if c = '\t' then ['\\', 't']
  else if c = '\x00' then ['\\', '0']
  else if isPrintable c then [c]
  else '\\' :: 'u' :: '{' :: (hexDigits c.toNat ++ ['}'])

def quoted (s : String) : String := String.ofList ('"' :: s.toList.flatMap shownChar ++ ['"'])

end ReasonAct.Text
