import Mathlib.Data.List.TakeWhile
import ReasonAct.Json.Numeral
set_option autoImplicit false

namespace ReasonAct.Json

structure Figures (ds : List Char) : Prop where
  nonempty : ds ≠ []
  digits : ∀ d ∈ ds, d.isDigit = true

def NoFigure (cs : List Char) : Prop := ∀ c ∈ cs.head?, c.isDigit = false

/-- A number with a sign or without one, as it stands after the mark of an exponent. -/
inductive SpellsSigned : List Char → Int → Prop
  | bare {ds : List Char} (h : Figures ds) : SpellsSigned ds (natOf ds)
  | plus {ds : List Char} (h : Figures ds) : SpellsSigned ('+' :: ds) (natOf ds)
  | minus {ds : List Char} (h : Figures ds) : SpellsSigned ('-' :: ds) (-(natOf ds))

inductive SpellsFraction : List Char → List Char → Prop
  | absent : SpellsFraction [] []
  | given {ds : List Char} (h : Figures ds) : SpellsFraction ('.' :: ds) ds

inductive SpellsExponent : List Char → Option Int → Prop
  | absent : SpellsExponent [] none
  | given {e : Char} {cs : List Char} {n : Int} (mark : e = 'e' ∨ e = 'E')
      (signed : SpellsSigned cs n) : SpellsExponent (e :: cs) (some n)

structure Numeral.Spelling (m : Numeral) (cs : List Char) : Prop where
  whole : Figures m.whole
  leading : ∀ ds, m.whole = '0' :: ds → ds = []
  parts : ∃ fraction exponent, SpellsFraction fraction m.fraction ∧
    SpellsExponent exponent m.exponent ∧
    cs = (if m.negative then ['-'] else []) ++ (m.whole ++ (fraction ++ exponent))

theorem figures_append {ds rest : List Char} (h : ∀ d ∈ ds, d.isDigit = true)
    (hrest : NoFigure rest) : figures (ds ++ rest) = (ds,rest) := by
  have hstop : rest.takeWhile Char.isDigit = [] ∧ rest.dropWhile Char.isDigit = rest := by
    cases rest with
    | nil => exact ⟨rfl,rfl⟩
    | cons c rest => simp [hrest c rfl]
  rw [figures,List.takeWhile_append_of_pos h,List.dropWhile_append_of_pos h,hstop.1,hstop.2,
    List.append_nil]

theorem figures_spec {cs ds rest : List Char} (h : figures cs = (ds,rest)) :
    cs = ds ++ rest ∧ (∀ d ∈ ds, d.isDigit = true) ∧ NoFigure rest := by
  obtain ⟨rfl,rfl⟩ := Prod.mk.inj h
  refine ⟨List.takeWhile_append_dropWhile.symm,fun d hd => List.mem_takeWhile_imp hd,?_⟩
  intro c hc
  have hstop := List.head?_dropWhile_not Char.isDigit cs
  rw [hc] at hstop
  exact hstop

theorem Figures.not_mem_head {ds : List Char} (h : Figures ds) {c : Char} (hc : c.isDigit = false)
    (cs : List Char) : ds ≠ c :: cs := by
  rintro rfl
  simp [h.digits c] at hc

theorem Figures.self {cs : List Char} (h : Figures cs) : figures cs = (cs,[]) := by
  have hself := figures_append h.digits (show NoFigure [] by simp [NoFigure])
  rwa [List.append_nil] at hself

theorem figures_to_end {cs ds rest : List Char} (h : figures cs = (ds,rest)) :
    ds.isEmpty = false ∧ rest.isEmpty = true ↔ Figures cs ∧ ds = cs := by
  constructor
  · rintro ⟨hne,hrest⟩
    obtain ⟨rfl,hds,-⟩ := figures_spec h
    obtain rfl := List.isEmpty_iff.mp hrest
    rw [List.append_nil]
    exact ⟨⟨by simpa using hne,hds⟩,rfl⟩
  · rintro ⟨hfigures,-⟩
    obtain ⟨rfl,rfl⟩ := Prod.mk.inj (hfigures.self.symm.trans h)
    simpa using hfigures.nonempty

theorem exponent?_eq_some_iff {cs : List Char} {n : Int} :
    exponent? cs = some n ↔ SpellsSigned cs n := by
  unfold exponent?
  split
  rename_i negative unsigned hsign
  cases hf : figures unsigned with
  | mk ds rest =>
    have hread : (if ds.isEmpty || !rest.isEmpty then none
          else some (if negative then -(natOf ds : Int) else natOf ds)) = some n ↔
        Figures unsigned ∧ n = if negative then -(natOf unsigned : Int) else natOf unsigned := by
      rw [Option.ite_none_left_eq_some,Option.some.injEq,Bool.or_eq_true,not_or,Bool.not_eq_true,
        Bool.not_eq_true',Bool.not_eq_false,figures_to_end hf]
      constructor
      · rintro ⟨⟨h,rfl⟩,rfl⟩
        exact ⟨h,rfl⟩
      · rintro ⟨h,rfl⟩
        obtain ⟨rfl,-⟩ := Prod.mk.inj (h.self.symm.trans hf)
        exact ⟨⟨h,rfl⟩,rfl⟩
    refine hread.trans ⟨?_,?_⟩
    · rintro ⟨h,rfl⟩
      split at hsign <;> cases hsign
      · exact .minus h
      · exact .plus h
      · exact .bare h
    · intro h
      cases h with
      | bare h =>
        split at hsign <;> cases hsign
        · exact absurd rfl (h.not_mem_head rfl _)
        · exact absurd rfl (h.not_mem_head rfl _)
        · exact ⟨h,rfl⟩
      | plus h =>
        cases hsign
        exact ⟨h,rfl⟩
      | minus h =>
        cases hsign
        exact ⟨h,rfl⟩

theorem SpellsExponent.noFigure {cs : List Char} {o : Option Int} (h : SpellsExponent cs o) :
    NoFigure cs := by
  cases h with
  | absent => simp [NoFigure]
  | given mark _ => rcases mark with rfl | rfl <;> simp [NoFigure]

theorem SpellsFraction.noFigure {cs rest ds : List Char} (h : SpellsFraction cs ds)
    (hrest : NoFigure rest) : NoFigure (cs ++ rest) := by
  cases h with
  | absent => exact hrest
  | given h => simp [NoFigure]

namespace Numeral

variable {negative : Bool} {whole cs : List Char} {m : Numeral}

theorem marked_iff {e : Char} {make : Int → Numeral} :
    (if e = 'e' ∨ e = 'E' then (exponent? cs).map make else none) = some m ↔
      ∃ n, SpellsExponent (e :: cs) (some n) ∧ make n = m := by
  rw [Option.ite_none_right_eq_some,Option.map_eq_some_iff]
  constructor
  · rintro ⟨mark,n,hn,rfl⟩
    exact ⟨n,.given mark (exponent?_eq_some_iff.mp hn),rfl⟩
  · rintro ⟨n,h,rfl⟩
    cases h with
    | given mark signed => exact ⟨mark,n,exponent?_eq_some_iff.mpr signed,rfl⟩

theorem tail?_spells (h : tail? negative whole cs = some m) :
    m.negative = negative ∧ m.whole = whole ∧ ∃ fraction exponent, cs = fraction ++ exponent ∧
      SpellsFraction fraction m.fraction ∧ SpellsExponent exponent m.exponent := by
  unfold tail? at h
  split at h
  · cases h
    exact ⟨rfl,rfl,[],[],rfl,.absent,.absent⟩
  · rename_i rest
    cases hf : figures rest with
    | mk fraction rest =>
      obtain ⟨rfl,hdigits,-⟩ := figures_spec hf
      simp only [hf,Option.ite_none_left_eq_some] at h
      obtain ⟨hne,h⟩ := h
      have hfraction : SpellsFraction ('.' :: fraction) fraction :=
        .given ⟨by simpa using hne,hdigits⟩
      cases rest with
      | nil =>
        cases h
        exact ⟨rfl,rfl,'.' :: fraction,[],by simp,hfraction,.absent⟩
      | cons e rest =>
        obtain ⟨n,hn,rfl⟩ := marked_iff.mp h
        exact ⟨rfl,rfl,'.' :: fraction,e :: rest,rfl,hfraction,hn⟩
  · rename_i e rest _
    obtain ⟨n,hn,rfl⟩ := marked_iff.mp h
    exact ⟨rfl,rfl,[],e :: rest,rfl,.absent,hn⟩

theorem tail?_of_spells {fraction exponent : List Char} (hf : SpellsFraction fraction m.fraction)
    (he : SpellsExponent exponent m.exponent) :
    tail? m.negative m.whole (fraction ++ exponent) = some m := by
  obtain ⟨negative,whole,figures,power⟩ := m
  dsimp only at hf he ⊢
  have hstop := he.noFigure
  cases hf with
  | absent =>
    cases he with
    | absent => rfl
    | @given e cs n mark signed =>
      have hpoint : e ≠ '.' := by rintro rfl; simp at mark
      unfold tail?
      split
      · contradiction
      · exact absurd (List.cons.inj ‹_›).1 hpoint
      · obtain ⟨rfl,rfl⟩ := List.cons.inj ‹_ :: _ = _ :: _›
        exact marked_iff.mpr ⟨n,.given mark signed,rfl⟩
  | given h =>
    have hread := figures_append h.digits hstop
    have hne : figures.isEmpty = false := by simpa using h.nonempty
    simp only [List.cons_append,tail?,hread,hne,Bool.false_eq_true,if_false]
    cases he with
    | absent => rfl
    | @given e cs n mark signed => exact marked_iff.mpr ⟨n,.given mark signed,rfl⟩

/-- The texts that are read as numerals are those that spell them. -/
theorem ofChars?_eq_some_iff : ofChars? cs = some m ↔ m.Spelling cs := by
  unfold ofChars?
  split
  rename_i negative unsigned hsign
  constructor
  · intro h
    cases hf : figures unsigned with
    | mk whole rest =>
      obtain ⟨rfl,hdigits,-⟩ := figures_spec hf
      simp only [hf] at h
      have hwhole : Figures whole ∧ (∀ ds, whole = '0' :: ds → ds = []) ∧
          tail? negative whole rest = some m := by
        split at h
        · cases h
        · cases h
        · rename_i hnil hzero
          refine ⟨⟨hnil,hdigits⟩,?_,h⟩
          rintro (_ | ⟨d,ds⟩) rfl
          · rfl
          · exact (hzero d ds rfl).elim
      obtain ⟨hfigures,hleading,htail⟩ := hwhole
      obtain ⟨hnegative,rfl,fraction,exponent,rfl,hfraction,hexponent⟩ := tail?_spells htail
      refine ⟨hfigures,hleading,fraction,exponent,hfraction,hexponent,?_⟩
      rw [hnegative]
      split at hsign
      all_goals
        obtain ⟨rfl,rfl⟩ := Prod.mk.inj hsign
        rfl
  · rintro ⟨hfigures,hleading,fraction,exponent,hfraction,hexponent,rfl⟩
    have hsigned : negative = m.negative ∧ unsigned = m.whole ++ (fraction ++ exponent) := by
      cases hnegative : m.negative with
      | true => simpa [hnegative,eq_comm] using hsign
      | false =>
        simp only [hnegative,Bool.false_eq_true,if_false,List.nil_append] at hsign
        split at hsign
        · rename_i ds heq
          cases hw : m.whole with
          | nil => exact absurd hw hfigures.nonempty
          | cons d ds =>
            rw [hw] at heq
            exact absurd (List.cons.inj heq).1 fun h => hfigures.not_mem_head rfl ds (h ▸ hw)
        · obtain ⟨rfl,rfl⟩ := Prod.mk.inj hsign
          exact ⟨rfl,rfl⟩
    obtain ⟨rfl,rfl⟩ := hsigned
    have hstop := hfraction.noFigure hexponent.noFigure
    simp only [figures_append hfigures.digits hstop]
    split
    · exact absurd ‹_› hfigures.nonempty
    · exact absurd (hleading _ ‹_›) (by simp)
    · exact tail?_of_spells hfraction hexponent

end Numeral
end ReasonAct.Json
