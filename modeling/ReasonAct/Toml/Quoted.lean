import ReasonAct.Toml.Basic
import ReasonAct.Text.Utf8
set_option autoImplicit false

namespace ReasonAct.Toml

def quote : Char := '"'
def tick : Char := '\x27'

def isPrintable (c : Char) : Bool := c = '\t' || (0x20 ≤ c.toNat && c.toNat ≠ 0x7F)

def isGap (c : Char) : Bool := c = ' ' || c = '\t'

def escaped? (c : Char) : Option Char :=
  match c with
  | 'b' => some '\x08'
  | 't' => some '\t'
  | 'n' => some '\n'
  | 'f' => some '\x0c'
  | 'r' => some '\r'
  | '"' => some '"'
  | '\\' => some '\\'
  | _ => none

inductive Quoting where
  | text
  | escape
  /-- White space after a backslash, which a line end must follow. -/
  | gap
  /-- The white space that a backslash at the end of a line removes. -/
  | joining
  | codePoint (left value : Nat)

def charOf? (n : Nat) : Option Char :=
  if n < 0xD800 ∨ 0xE000 ≤ n ∧ n < 0x110000 then some (Char.ofNat n) else none

/-- The rest after a closing run of three to five delimiters; those before the last three are
part of the text. -/
def closing (d : Char) (rest out : List Char) : List Char × List Char :=
  match rest with
  | a :: b :: more =>
    if a = d then if b = d then (d :: d :: out, more) else (d :: out, b :: more) else (out, rest)
  | [a] => if a = d then (d :: out, []) else (out, rest)
  | [] => (out, [])

/-- Reads to the end of a basic string: the text, last character first, and the rest. A line end
is read as one line feed. -/
def basic (several : Bool) : List Char → Quoting → List Char → Option (List Char × List Char)
  | [], _, _ => none
  | c :: cs, .text, out =>
    if c = quote then
      if several then
        match cs with
        | '"' :: '"' :: rest => some (closing quote rest out)
        | _ => basic several cs .text (quote :: out)
      else some (out, cs)
    else if c = '\\' then basic several cs .escape out
    else if c = '\n' then if several then basic several cs .text ('\n' :: out) else none
    else if c = '\r' then
      if several && cs.head? = some '\n' then basic several cs .text out else none
    else if isPrintable c then basic several cs .text (c :: out)
    else none
  | c :: cs, .escape, out =>
    if c = 'u' then basic several cs (.codePoint 4 0) out
    else if c = 'U' then basic several cs (.codePoint 8 0) out
    else match escaped? c with
      | some d => basic several cs .text (d :: out)
      | none =>
        if !several then none
        else if isGap c then basic several cs .gap out
        else if c = '\n' then basic several cs .joining out
        else if c = '\r' && cs.head? = some '\n' then basic several cs .gap out
        else none
  | c :: cs, .gap, out =>
    if isGap c then basic several cs .gap out
    else if c = '\n' then basic several cs .joining out
    else if c = '\r' && cs.head? = some '\n' then basic several cs .gap out
    else none
  | c :: cs, .joining, out =>
    if isGap c || c = '\n' then basic several cs .joining out
    else if c = '\r' then if cs.head? = some '\n' then basic several cs .joining out else none
    else if c = '\\' then basic several cs .escape out
    else if c = quote then
      match cs with
      | '"' :: '"' :: rest => some (closing quote rest out)
      | _ => basic several cs .text (quote :: out)
    else if isPrintable c then basic several cs .text (c :: out)
    else none
  | c :: cs, .codePoint left value, out =>
    match Text.Utf8.hexValue? c with
    | none => none
    | some d =>
      let n := value * 16 + d
      if 1 < left then basic several cs (.codePoint (left - 1) n) out
      else match charOf? n with
        | some ch => basic several cs .text (ch :: out)
        | none => none

def literal (several : Bool) : List Char → List Char → Option (List Char × List Char)
  | [], _ => none
  | c :: cs, out =>
    if c = tick then
      if several then
        match cs with
        | '\x27' :: '\x27' :: rest => some (closing tick rest out)
        | _ => literal several cs (tick :: out)
      else some (out, cs)
    else if c = '\n' then if several then literal several cs ('\n' :: out) else none
    else if c = '\r' then if several && cs.head? = some '\n' then literal several cs out else none
    else if isPrintable c then literal several cs (c :: out)
    else none

/-- A line end right after the opening does not count. -/
def afterOpening : List Char → List Char
  | '\n' :: cs => cs
  | '\r' :: '\n' :: cs => cs
  | cs => cs

def finish (r : Option (List Char × List Char)) : Option (String × List Char) :=
  r.map fun (out, rest) => (String.ofList out.reverse, rest)

def string? : List Char → Option (String × List Char)
  | '"' :: '"' :: '"' :: cs => finish (basic true (afterOpening cs) .text [])
  | '"' :: cs => finish (basic false cs .text [])
  | '\x27' :: '\x27' :: '\x27' :: cs => finish (literal true (afterOpening cs) [])
  | '\x27' :: cs => finish (literal false cs [])
  | _ => none

def lineString? : List Char → Option (String × List Char)
  | '"' :: cs => finish (basic false cs .text [])
  | '\x27' :: cs => finish (literal false cs [])
  | _ => none

def longestRun (d : Char) : List Char → Nat → Nat
  | [], n => n
  | c :: cs, n => if c = d then longestRun d cs (n + 1) else max n (longestRun d cs 0)

def needsEscape (c : Char) : Bool :=
  c ≠ '\t' && c ≠ '\n' && (c.toNat < 0x20 || c.toNat = 0x7F)

def escape (several : Bool) (c : Char) : List Char :=
  if c = '\x08' then ['\\', 'b']
  else if c = '\t' then ['\\', 't']
  else if c = '\n' then if several then ['\n'] else ['\\', 'n']
  else if c = '\x0c' then ['\\', 'f']
  else if c = '\r' then ['\\', 'r']
  else if c = '"' then ['\\', '"']
  else if c = '\\' then ['\\', '\\']
  else if c.toNat < 0x20 || c.toNat = 0x7F then
    ['\\', 'u', '0', '0', (Nat.digitChar (c.toNat / 16)).toUpper,
      (Nat.digitChar (c.toNat % 16)).toUpper]
  else [c]

/-- Over several lines up to two quotes in a row stand for themselves; `run` counts them. -/
def escapeLines : List Char → Nat → List Char → List Char
  | [], _, out => out.reverse
  | c :: cs, run, out =>
    if c = quote then
      if run < 2 then escapeLines cs (run + 1) (quote :: out)
      else escapeLines cs 0 (quote :: '\\' :: out)
    else
      let e := escape true c
      escapeLines cs 0 (e.reverse ++ out)

def lines (delimiter body : List Char) (several : Bool) : List Char :=
  delimiter ++ (if several then ['\n'] else []) ++ body ++ delimiter

/-- The written form: on one line and without escapes where that can be, else over several lines,
and with escapes only where nothing else will do. -/
def quoted (s : String) : List Char :=
  let cs := s.toList
  let control := cs.any needsEscape
  let several := cs.any (· = '\n')
  let slash := cs.any (· = '\\')
  let quotes := longestRun quote cs 0
  let ticks := longestRun tick cs 0
  let three (d : Char) : List Char := [d, d, d]
  if !control && !slash && quotes = 0 && !several then quote :: cs.flatMap (escape false) ++ [quote]
  else if !control && ticks = 0 && !several then tick :: cs ++ [tick]
  else if !control && !slash && quotes ≤ 2 then lines (three quote) (escapeLines cs 0 []) several
  else if !control && ticks ≤ 2 then lines (three tick) cs several
  else if several then lines (three quote) (escapeLines cs 0 []) several
  else quote :: cs.flatMap (escape false) ++ [quote]

end ReasonAct.Toml
