import Mathlib.Data.List.Infix
import ReasonAct.Proofs.Text.Utf8
/-!
The first bytes of a text. Read again they are the longest beginning that fits, and one mark at the
end if the cut falls inside a character: less than a character's bytes, but not none of them, are
the beginning of a character that nothing continues.
-/
set_option autoImplicit false

namespace ReasonAct.Text.Utf8

def size (cs : List Char) : Nat := (cs.flatMap String.utf8EncodeChar).length

@[simp] theorem size_nil : size [] = 0 := rfl

theorem size_cons (c : Char) (cs : List Char) :
    size (c :: cs) = (String.utf8EncodeChar c).length + size cs := by simp [size]

structure LongestFitting (cs : List Char) (n : Nat) (whole : List Char) : Prop where
  beginning : whole <+: cs
  fits : size whole ≤ n
  longest : ∀ other, other <+: cs → size other ≤ n → other <+: whole

/-- A cut after so many bytes leaves some of a character's bytes before it and some after it. -/
def CutsInside (cs : List Char) (n : Nat) : Prop :=
  ∃ before c after, cs = before ++ c :: after ∧ size before < n ∧ n < size (before ++ [c])

theorem LongestFitting.nil (n : Nat) : LongestFitting [] n [] :=
  ⟨List.prefix_rfl,Nat.zero_le n,fun _ h _ => h⟩

theorem not_cutsInside_nil (n : Nat) : ¬ CutsInside [] n := by
  rintro ⟨before,c,after,h,-⟩
  simp at h

section cons

variable {c : Char} {cs : List Char} {n : Nat}

theorem LongestFitting.cons {whole : List Char} (hc : (String.utf8EncodeChar c).length ≤ n)
    (h : LongestFitting cs (n - (String.utf8EncodeChar c).length) whole) :
    LongestFitting (c :: cs) n (c :: whole) := by
  have hfits := h.fits
  refine ⟨List.prefix_cons_inj c |>.mpr h.beginning,by rw [size_cons]; omega,?_⟩
  intro other hother hsize
  cases other with
  | nil => exact List.nil_prefix
  | cons d other =>
    obtain ⟨rfl,hrest⟩ := List.cons_prefix_cons.mp hother
    rw [size_cons] at hsize
    exact List.prefix_cons_inj d |>.mpr (h.longest other hrest (by omega))

theorem LongestFitting.none (hc : n < (String.utf8EncodeChar c).length) :
    LongestFitting (c :: cs) n [] := by
  refine ⟨List.nil_prefix,Nat.zero_le n,?_⟩
  intro other hother hsize
  cases other with
  | nil => exact List.prefix_rfl
  | cons d other =>
    obtain ⟨rfl,-⟩ := List.cons_prefix_cons.mp hother
    rw [size_cons] at hsize
    omega

theorem cutsInside_past (hc : (String.utf8EncodeChar c).length ≤ n) :
    CutsInside (c :: cs) n ↔ CutsInside cs (n - (String.utf8EncodeChar c).length) := by
  constructor
  · rintro ⟨before,d,after,h,hlow,hhigh⟩
    cases before with
    | nil =>
      obtain ⟨rfl,-⟩ := List.cons.inj h
      simp only [List.nil_append,size_cons,size_nil] at hhigh
      omega
    | cons b before =>
      obtain ⟨rfl,rfl⟩ := List.cons.inj h
      rw [size_cons] at hlow
      rw [List.cons_append,size_cons] at hhigh
      exact ⟨before,d,after,rfl,by omega,by omega⟩
  · rintro ⟨before,d,after,rfl,hlow,hhigh⟩
    refine ⟨c :: before,d,after,rfl,?_,?_⟩
    · rw [size_cons]; omega
    · rw [List.cons_append,size_cons]; omega

theorem cutsInside_first (hc : n < (String.utf8EncodeChar c).length) :
    CutsInside (c :: cs) n ↔ 0 < n := by
  constructor
  · rintro ⟨before,d,after,-,hlow,-⟩
    omega
  · exact fun h => ⟨[],c,cs,rfl,h,by simpa [size_cons] using hc⟩

end cons

theorem scanFrom_take_encodeChar {c : Char} {n : Nat} (hpos : 0 < n)
    (hn : n < (String.utf8EncodeChar c).length) (out : List (Option Char)) :
    scanFrom ((String.utf8EncodeChar c).take n) none out = none :: out := by
  have hv : c.val.toNat < 0xD800 ∨ 0xDFFF < c.val.toNat ∧ c.val.toNat < 0x110000 := c.valid
  unfold String.utf8EncodeChar at hn ⊢
  dsimp only at hn ⊢
  generalize c.val.toNat = v at hv hn
  -- One case for every length, and in it one for every place of the cut: the bytes before it leave
  -- a character under way.
  split at hn
  · simp only [List.length_cons,List.length_nil] at hn
    omega
  split at hn
  · obtain rfl : n = 1 := by simp only [List.length_cons,List.length_nil] at hn; omega
    rw [if_neg ‹_›,if_pos ‹_›,List.take_succ_cons,List.take_zero,
      scanFrom_opens (by omega) _ _ (lead_two (by omega) (by omega))]
    rfl
  split at hn
  · rw [if_neg ‹_›,if_neg ‹_›,if_pos ‹_›]
    obtain rfl | rfl : n = 1 ∨ n = 2 := by
      simp only [List.length_cons,List.length_nil] at hn; omega
    all_goals
      simp only [List.take_succ_cons,List.take_zero]
      rw [scanFrom_opens (by omega) _ _ (lead_three (by omega) (by omega))]
    · rfl
    · rw [scanFrom_more (by omega) _ _ (by split <;> omega) (by split <;> omega)]
      rfl
  · rw [if_neg ‹_›,if_neg ‹_›,if_neg ‹_›]
    obtain rfl | rfl | rfl : n = 1 ∨ n = 2 ∨ n = 3 := by
      simp only [List.length_cons,List.length_nil] at hn; omega
    all_goals
      simp only [List.take_succ_cons,List.take_zero]
      rw [scanFrom_opens (by omega) _ _ (lead_four (by omega) (by omega))]
    · rfl
    · rw [scanFrom_more (by omega) _ _ (by split <;> omega) (by split <;> omega)]
      rfl
    · rw [scanFrom_more (by omega) _ _ (by split <;> omega) (by split <;> omega),
        scanFrom_more (by omega) _ _ (by omega) (by omega)]
      rfl

/-- What the first bytes are scanned as: `mark` is there if the cut falls inside a character. -/
theorem scanFrom_take (cs : List Char) (n : Nat) (out : List (Option Char)) :
    ∃ whole mark, LongestFitting cs n whole ∧
      (CutsInside cs n ∧ mark = [none] ∨ ¬ CutsInside cs n ∧ mark = []) ∧
      scanFrom ((cs.flatMap String.utf8EncodeChar).take n) none out =
        mark ++ (whole.map some).reverse ++ out := by
  induction cs generalizing n out with
  | nil => exact ⟨[],[],.nil n,.inr ⟨not_cutsInside_nil n,rfl⟩,by simp [scanFrom]⟩
  | cons c cs ih =>
    rw [List.flatMap_cons,List.take_append]
    by_cases hc : (String.utf8EncodeChar c).length ≤ n
    · obtain ⟨whole,mark,hwhole,hmark,hscan⟩ :=
        ih (n - (String.utf8EncodeChar c).length) (some c :: out)
      rw [← cutsInside_past hc] at hmark
      refine ⟨c :: whole,mark,hwhole.cons hc,hmark,?_⟩
      rw [List.take_of_length_le hc,scanFrom_encodeChar,hscan]
      simp
    · replace hc := Nat.lt_of_not_le hc
      rw [Nat.sub_eq_zero_of_le hc.le,List.take_zero,List.append_nil]
      obtain rfl | hpos := Nat.eq_zero_or_pos n
      · refine ⟨[],[],.none hc,.inr ⟨?_,rfl⟩,by simp [scanFrom]⟩
        rw [cutsInside_first hc]
        exact Nat.lt_irrefl 0
      · exact ⟨[],[none],.none hc,.inl ⟨(cutsInside_first hc).mpr hpos,rfl⟩,
          scanFrom_take_encodeChar hpos hc out⟩

/-- The first bytes of a text are read as the characters that are whole in them, with U+FFFD for
what is left of the next. -/
theorem decodeLossy_take (s : String) (n : Nat) : ∃ whole, LongestFitting s.toList n whole ∧
    (CutsInside s.toList n ∧
        decodeLossy ((encode s).take n) = String.ofList (whole ++ [Char.ofNat 0xFFFD]) ∨
      ¬ CutsInside s.toList n ∧ decodeLossy ((encode s).take n) = String.ofList whole) := by
  obtain ⟨whole,mark,hwhole,hmark,hscan⟩ := scanFrom_take s.toList n []
  refine ⟨whole,hwhole,?_⟩
  rw [decodeLossy,scan,encode_eq,hscan]
  rcases hmark with ⟨hcut,rfl⟩ | ⟨hcut,rfl⟩
  · exact .inl ⟨hcut,by simp [Function.comp_def]⟩
  · exact .inr ⟨hcut,by simp [Function.comp_def]⟩

end ReasonAct.Text.Utf8
