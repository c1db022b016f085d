import Mathlib.Data.List.Chain
import Mathlib.Data.List.TakeWhile
import ReasonAct.Calculator.Token
/-!
What a text of the calculator is made of. Every text is a sequence of items, in which a run of
figures and points is as long as it can be; a run is a number if it has the shape of one.
-/
set_option autoImplicit false

namespace ReasonAct.Calculator

section Numeral

def Figures (cs : List Char) : Prop := ∀ c ∈ cs, c.isDigit = true

/-- The shapes of a number, with its figures before and after the point. -/
inductive Numeral : List Char → List Char → List Char → Prop
  | whole {ds : List Char} (h : Figures ds) (nonempty : ds ≠ []) : Numeral ds ds []
  | pointed {ds : List Char} (h : Figures ds) (nonempty : ds ≠ []) : Numeral (ds ++ ['.']) ds []
  | fraction {fs : List Char} (h : Figures fs) (nonempty : fs ≠ []) : Numeral ('.' :: fs) [] fs
  | full {ds fs : List Char} (h : Figures ds) (nonempty : ds ≠ []) (h' : Figures fs)
      (nonempty' : fs ≠ []) : Numeral (ds ++ '.' :: fs) ds fs

variable {run whole fraction ds fs : List Char}

theorem literal?_whole (h : Figures ds) (hne : ds ≠ []) : literal? ds = some (ds, []) := by
  have htake : ds.takeWhile Char.isDigit = ds := List.takeWhile_eq_self_iff.mpr h
  have hdrop : ds.dropWhile Char.isDigit = [] := List.dropWhile_eq_nil_iff.mpr h
  simp [literal?,htake,hdrop,hne]

theorem literal?_pointed (h : Figures ds) (h' : Figures fs) (hne : ds ≠ [] ∨ fs ≠ []) :
    literal? (ds ++ '.' :: fs) = some (ds, fs) := by
  have hpoint : '.'.isDigit = false := by decide
  have htake : (ds ++ '.' :: fs).takeWhile Char.isDigit = ds := by
    rw [List.takeWhile_append_of_pos h,List.takeWhile_cons_of_neg (by simp [hpoint]),
      List.append_nil]
  have hdrop : (ds ++ '.' :: fs).dropWhile Char.isDigit = '.' :: fs := by
    rw [List.dropWhile_append_of_pos h,List.dropWhile_cons_of_neg (by simp [hpoint])]
  have hfs : fs.all Char.isDigit = true := List.all_eq_true.mpr h'
  have hsome : (ds.isEmpty && fs.isEmpty) = false := by
    simpa [Decidable.imp_iff_not_or] using hne
  simp [literal?,htake,hdrop,hfs,hsome]

theorem literal?_eq_some_iff (hrun : ∀ c ∈ run, isRun c = true) :
    literal? run = some (whole, fraction) ↔ Numeral run whole fraction := by
  constructor
  · intro h
    have hsplit : run.takeWhile Char.isDigit ++ run.dropWhile Char.isDigit = run :=
      List.takeWhile_append_dropWhile
    have hfigures : Figures (run.takeWhile Char.isDigit) := fun c hc => List.mem_takeWhile_imp hc
    have hhead := List.head?_dropWhile_not Char.isDigit run
    unfold literal? at h
    dsimp only at h
    generalize run.takeWhile Char.isDigit = ds at *
    generalize run.dropWhile Char.isDigit = rest at *
    subst hsplit
    cases rest with
    | nil =>
      simp only [Option.ite_none_left_eq_some,List.isEmpty_iff,Option.some.injEq,
        Prod.mk.injEq] at h
      obtain ⟨hne,rfl,rfl⟩ := h
      rw [List.append_nil]
      exact .whole hfigures hne
    | cons p fs =>
      simp only [Option.ite_none_right_eq_some,Bool.and_eq_true,List.all_eq_true,
        Bool.not_eq_true',Bool.and_eq_false_iff,Option.some.injEq,Prod.mk.injEq] at h
      obtain ⟨⟨hfs,hne⟩,rfl,rfl⟩ := h
      have hp := hrun p (by simp)
      have hpoint : p.isDigit = false := hhead
      obtain rfl : p = '.' := by simpa [isRun,hpoint] using hp
      cases ds with
      | nil => exact .fraction hfs (by simpa using hne)
      | cons d ds =>
        cases fs with
        | nil => exact .pointed hfigures (by simp)
        | cons f fs => exact .full hfigures (by simp) hfs (by simp)
  · intro h
    cases h with
    | whole h hne => exact literal?_whole h hne
    | pointed h hne => exact literal?_pointed h (by simp [Figures]) (.inl hne)
    | fraction h hne => exact literal?_pointed (show Figures [] by simp [Figures]) h (.inr hne)
    | full h hne h' _ => exact literal?_pointed h h' (.inl hne)

end Numeral

section Item

def Known (c : Char) : Prop :=
  isRun c = true ∨ Text.isBlank c = true ∨ (∃ op : Operator, op.char = c) ∨ c = '(' ∨ c = ')'

inductive Item where
  | blank (c : Char) (h : Text.isBlank c = true)
  | operator (op : Operator)
  | openParen
  | closeParen
  | run (cs : List Char) (nonempty : cs ≠ []) (h : ∀ c ∈ cs, isRun c = true)
  | other (c : Char) (h : ¬ Known c)

namespace Item

def text : Item → List Char
  | .blank c _ | .other c _ => [c]
  | .operator op => [op.char]
  | .openParen => ['(']
  | .closeParen => [')']
  | .run cs _ _ => cs

def isRun : Item → Bool
  | .run _ _ _ => true
  | _ => false

/-- An item of an expression, as far as the single item tells. -/
def Sound : Item → Prop
  | .run cs _ _ => ∃ whole fraction, Numeral cs whole fraction
  | .other _ _ => False
  | _ => True

def fault {α : Type} (offset : Nat) : Item → Fault α
  | .other c _ => .character c offset
  | x => .literal (String.ofList x.text)

def token? {α : Type} (value : List Char → List Char → α) : Item → Option (Token α)
  | .operator op => some (.operator op)
  | .openParen => some .openParen
  | .closeParen => some .closeParen
  | .run cs _ _ => (literal? cs).map fun (whole, fraction) => .number (value whole fraction)
  | _ => none

end Item

def Item.Apart (x y : Item) : Prop := ¬ (x.isRun = true ∧ y.isRun = true)

/-- The items of a text. No run goes on in the next item. -/
structure Divided (cs : List Char) (items : List Item) : Prop where
  text : items.flatMap Item.text = cs
  maximal : items.IsChain Item.Apart

theorem isRun_eq_false_of_isBlank {c : Char} (h : Text.isBlank c = true) : isRun c = false := by
  refine Bool.eq_false_iff.mpr fun hrun => ?_
  rcases (by simpa [isRun] using hrun : c.isDigit = true ∨ c = '.') with hdigit | rfl
  · have hlow : 48 ≤ c.toNat ∧ c.toNat ≤ 57 := by
      simpa [Char.isDigit,UInt32.le_iff_toNat_le] using hdigit
    simp only [Text.isBlank,Bool.or_eq_true,Bool.and_eq_true,decide_eq_true_eq,beq_iff_eq] at h
    omega
  · contradiction

theorem exists_item {c : Char} (hc : isRun c = false) :
    ∃ x : Item, x.text = [c] ∧ x.isRun = false := by
  by_cases hknown : Known c
  · rcases hknown with hrun | hblank | ⟨op,rfl⟩ | rfl | rfl
    · simp [hc] at hrun
    · exact ⟨.blank c hblank,rfl,rfl⟩
    · exact ⟨.operator op,rfl,rfl⟩
    · exact ⟨.openParen,rfl,rfl⟩
    · exact ⟨.closeParen,rfl,rfl⟩
  · exact ⟨.other c hknown,rfl,rfl⟩

theorem exists_divided (cs : List Char) : ∃ items, Divided cs items := by
  induction cs with
  | nil => exact ⟨[],rfl,.nil⟩
  | cons c cs ih =>
    obtain ⟨items,rfl,hmaximal⟩ := ih
    cases hc : isRun c with
    | false =>
      obtain ⟨x,hx,hrun⟩ := exists_item hc
      exact ⟨x :: items,by simp [hx],List.isChain_cons.mpr ⟨by simp [Item.Apart,hrun],hmaximal⟩⟩
    | true =>
      have alone (hhead : ∀ y ∈ items.head?, y.isRun = false) :
          ∃ items', Divided (c :: items.flatMap Item.text) items' :=
        ⟨.run [c] (by simp) (by simpa using hc) :: items,by simp [Item.text],
          List.isChain_cons.mpr ⟨fun y hy => by simp [Item.Apart,hhead y hy],hmaximal⟩⟩
      cases items with
      | nil => exact alone (by simp)
      | cons x items =>
        cases x with
        | run ds hne hds =>
          refine ⟨.run (c :: ds) (by simp) (by simpa [hc] using hds) :: items,
            by simp [Item.text],?_⟩
          rw [List.isChain_cons] at hmaximal ⊢
          exact hmaximal
        | _ => exact alone (by simp [Item.isRun])

end Item

end ReasonAct.Calculator
