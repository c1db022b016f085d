import Mathlib.Data.List.TakeWhile
import ReasonAct.Text.Blank
set_option autoImplicit false

namespace ReasonAct.Text

theorem toList_trim (s : String) :
    (trim s).toList = (trimStart (trimStart s.toList).reverse).reverse := by simp [trim]

theorem exists_trim (s : String) : ∃ before after, (∀ c ∈ before, isBlank c = true) ∧
    (∀ c ∈ after, isBlank c = true) ∧ s.toList = before ++ (trim s).toList ++ after := by
  refine ⟨s.toList.takeWhile isBlank,((trimStart s.toList).reverse.takeWhile isBlank).reverse,
    fun c hc => List.mem_takeWhile_imp hc,
    fun c hc => List.mem_takeWhile_imp (List.mem_reverse.mp hc),?_⟩
  have hend : trimStart s.toList = (trim s).toList ++
      ((trimStart s.toList).reverse.takeWhile isBlank).reverse := by
    rw [toList_trim,← List.reverse_append,trimStart.eq_1 (trimStart s.toList).reverse,
      List.takeWhile_append_dropWhile,List.reverse_reverse]
  rw [List.append_assoc,← hend]
  exact List.takeWhile_append_dropWhile.symm

theorem trimStart_append {before : List Char} (h : ∀ c ∈ before, isBlank c = true)
    (cs : List Char) : trimStart (before ++ cs) = trimStart cs := List.dropWhile_append_of_pos h

theorem toList_trim_eq {s : String} {before cs after : List Char}
    (hs : s.toList = before ++ cs ++ after) (hbefore : ∀ c ∈ before, isBlank c = true)
    (hafter : ∀ c ∈ after, isBlank c = true) (hne : cs ≠ [])
    (hhead : isBlank (cs.head hne) = false) (hlast : isBlank (cs.getLast hne) = false) :
    (trim s).toList = cs := by
  have solid {ds : List Char} (h : ds ≠ []) (hds : isBlank (ds.head h) = false)
      (rest : List Char) : trimStart (ds ++ rest) = ds ++ rest := by
    obtain ⟨d,ds,rfl⟩ := List.exists_cons_of_ne_nil h
    exact List.dropWhile_cons_of_neg (by simpa using hds)
  have hrev : cs.reverse ≠ [] := by simpa using hne
  have hback := solid hrev (by simpa using hlast) []
  rw [List.append_nil] at hback
  rw [toList_trim,hs,List.append_assoc,trimStart_append hbefore,solid hne hhead,
    List.reverse_append,trimStart_append (by simpa using hafter),hback,List.reverse_reverse]

theorem isBlank_of_isDigit {c : Char} (h : c.isDigit = true) : isBlank c = false := by
  have hrange : 48 ≤ c.toNat ∧ c.toNat ≤ 57 := by
    simpa [Char.isDigit,UInt32.le_iff_toNat_le] using h
  simp only [isBlank,Bool.or_eq_false_iff,Bool.and_eq_false_iff,decide_eq_false_iff_not,
    beq_eq_false_iff_ne]
  omega

end ReasonAct.Text
