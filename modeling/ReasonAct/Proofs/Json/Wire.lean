import ReasonAct.Proofs.Json.Alteration
import ReasonAct.Proofs.Json.Reading
set_option autoImplicit false

namespace ReasonAct.Json

open Source

/-- How the values of a type are written and read, and what may be altered in between. -/
structure Wire (α : Type) where
  write : α → Source
  read : Source → Option α
  alters : Alteration

namespace Wire

variable {α : Type} (w : Wire α)

def decode? (text : String) : Option α := (Source.parse? text).bind w.read

/-- The value is read back from its text; from every text that stands for an altered record of it;
and, if that is not nested too deeply, from the text that is written of the altered record. What is
written counts as altered, with nothing changed. -/
structure Survives (x : α) : Prop where
  same : w.alters (w.write x) (w.write x)
  written : w.decode? (w.write x).text = some x
  altered : ∀ s, w.alters (w.write x) s → s.Readable →
    ∀ text, Source.parse? text = some s → w.decode? text = some x
  rewritten : ∀ s, w.alters (w.write x) s → s.Within nestingLimit → w.decode? s.text = some x

variable {w}

theorem survives {x : α} (hrespects : Respects w.alters w.read)
    (hsame : w.alters (w.write x) (w.write x)) (hread : w.read (w.write x) = some x)
    (hwithin : (w.write x).Within nestingLimit) : w.Survives x := by
  have haltered : ∀ s, w.alters (w.write x) s → s.Readable →
      ∀ text, Source.parse? text = some s → w.decode? text = some x := by
    intro s hs hreadable text htext
    have hagree := hrespects _ _ hwithin.readable hreadable hs
    simp [decode?,htext,hagree,hread]
  have hrewritten : ∀ s, w.alters (w.write x) s → s.Within nestingLimit →
      w.decode? s.text = some x := fun s hs hdepth =>
    haltered s hs hdepth.readable s.text hdepth.parse?_text
  exact ⟨hsame,hrewritten _ hsame hwithin,haltered,hrewritten⟩

end Wire
end ReasonAct.Json
