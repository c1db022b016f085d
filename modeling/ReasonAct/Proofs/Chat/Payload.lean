import ReasonAct.Chat.Block
import ReasonAct.Proofs.Json.Reading
import ReasonAct.Text.Blank
set_option autoImplicit false

namespace ReasonAct

open Json

theorem errorPayload_eq (message : String) :
    errorPayload message = (Json.object [("error",.string message)]).text := rfl

theorem parse?_errorPayload (message : String) :
    parse? (errorPayload message) = some (.object [("error",.string message)]) := by
  have hsorted : Json.Sorted (.object [("error",.string message)]) :=
    .of_names (List.pairwise_singleton _ _) (by simpa using .string message)
  rw [errorPayload_eq]
  refine hsorted.parse?_text ?_
  simp [Json.source,sourceMembers,nestingLimit]

theorem isErrorPayload_iff {output : String} : isErrorPayload output = true ↔
    ∃ ms, parse? output = some (.object ms) ∧ "error" ∈ ms.map Prod.fst := by
  unfold isErrorPayload
  cases parse? output with
  | none => simp
  | some j => cases j <;> simp [member?,List.lookup_isSome_iff]

theorem isErrorPayload_errorPayload (message : String) :
    isErrorPayload (errorPayload message) = true :=
  isErrorPayload_iff.mpr ⟨_,parse?_errorPayload message,List.mem_singleton.mpr rfl⟩

theorem errorPayload_not_blank (message : String) : Text.blank (errorPayload message) = false := by
  have hopens : Text.isBlank '{' = false := rfl
  simp only [errorPayload_eq,Text.blank,Json.text,Source.text,Json.source,sourceMembers,
    Source.chars,String.toList_ofList,List.all_cons,hopens,Bool.false_and]

end ReasonAct
