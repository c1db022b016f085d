import ReasonAct.Proofs.Json.Written
import ReasonAct.Toml.Scalar
set_option autoImplicit false

namespace ReasonAct.Toml

open Decimal

section Figures

variable {ds : List Char} (h : ∀ c ∈ ds, c.isDigit = true)

include h

theorem expect?_figures {c : Char} (hc : c.isDigit = false) : expect? c ds = none := by
  cases ds with
  | nil => rfl
  | cons d ds =>
    have hne : d ≠ c := by
      rintro rfl
      exact absurd (h d List.mem_cons_self) (by simp [hc])
    simp only [expect?,hne,if_false]

theorem expect?_fixed {width n : Nat} {rest : List Char} {c : Char} (hc : c.isDigit = false)
    (hfixed : fixed? width ds = some (n, rest)) : expect? c rest = none := by
  simp only [fixed?,Option.ite_none_right_eq_some,Option.some.injEq,Prod.mk.injEq] at hfixed
  obtain ⟨-,-,rfl⟩ := hfixed
  exact expect?_figures (fun c hc => h c (List.mem_of_mem_drop hc)) hc

theorem isMoment_figures : isMoment ds = false := by
  have hdate : date? ds = none := by
    cases hyear : fixed? 4 ds with
    | none => simp [date?,hyear]
    | some year =>
      have hdash : expect? '-' year.2 = none := expect?_fixed h (by decide) hyear
      simp [date?,hyear,hdash]
  have htime : time? ds = none := by
    cases hhour : fixed? 2 ds with
    | none => simp [time?,hhour]
    | some hour =>
      have hcolon : expect? ':' hour.2 = none := expect?_fixed h (by decide) hhour
      simp [time?,hhour,hcolon]
  simp [isMoment,hdate,htime]

theorem spaced?_figures (hne : ds ≠ []) : spaced? Char.isDigit ds = some ds := by
  induction ds with
  | nil => exact absurd rfl hne
  | cons d ds ih =>
    obtain ⟨hd,hds⟩ := List.forall_mem_cons.mp h
    cases ds with
    | nil => simp [spaced?,hd]
    | cons e es =>
      have he : e ≠ '_' := by
        rintro rfl
        exact absurd (hds _ List.mem_cons_self) (by decide)
      rw [spaced?]
      · simp [hd,ih hds (by simp)]
      · simp
      · simpa using he

theorem foldl_figures (n : Nat) :
    ds.foldl (fun n c => n*10+(Text.Utf8.hexValue? c).getD 0) n = Nat.ofDigitChars 10 ds n := by
  induction ds generalizing n with
  | nil => rfl
  | cons d ds ih =>
    obtain ⟨hd,hds⟩ := List.forall_mem_cons.mp h
    have hvalue : Text.Utf8.hexValue? d = some (d.toNat-48) := by
      simp only [Char.isDigit,Bool.and_eq_true,decide_eq_true_iff,ge_iff_le] at hd
      have hlow : 48 ≤ d.toNat := hd.1
      have hhigh : d.toNat ≤ 57 := hd.2
      simp [Text.Utf8.hexValue?,hlow,hhigh]
    rw [List.foldl_cons,ih hds,Nat.ofDigitChars_cons,hvalue,Option.getD_some,Nat.mul_comm]
    rfl

theorem magnitude_figures : magnitude 10 ds = Json.natOf ds := foldl_figures h 0

theorem isRun_figures : ∀ c ∈ ds, isRun c = true := by
  intro c hc
  simp [isRun,Char.isAlphanum,h c hc]

end Figures

theorem whole?_natDigits (n : Nat) : whole? (natDigits n) = some (natDigits n) := by
  rw [whole?,spaced?_figures (fun c => Json.isDigit_natDigits) Nat.toDigits_ne_nil]
  split
  · rename_i hzero
    cases Json.tail_nil_of_toDigits (Option.some.inj hzero)
  · rfl

theorem natDigits_ne (n : Nat) (before : List Char) {c : Char} (rest : List Char)
    (hc : c.isDigit = false) : natDigits n ≠ before ++ c :: rest := by
  intro h
  have hmem : c ∈ natDigits n := by simp [h]
  simp [Json.isDigit_natDigits hmem] at hc

theorem unsign_natDigits (n : Nat) : unsign (natDigits n) = (false, natDigits n) := by
  unfold unsign
  split
  · exact absurd ‹_› (natDigits_ne n [] _ (by decide))
  · exact absurd ‹_› (natDigits_ne n [] _ (by decide))
  · rfl

theorem integerWithin?_nat {n : Nat} (hn : 2*n < UInt64.size) :
    integerWithin? n = some (.integer n) := by
  have hsize : UInt64.size = 18446744073709551616 := rfl
  have hmin : Int64.minValue.toInt = -9223372036854775808 := rfl
  have hmax : Int64.maxValue.toInt = 9223372036854775807 := rfl
  rw [integerWithin?,if_pos (by omega)]

theorem integer?_natDigits {n : Nat} (hn : 2*n < UInt64.size) :
    integer? (natDigits n) = some (.integer n) := by
  have hmagnitude : magnitude 10 (natDigits n) = n := by
    rw [magnitude_figures (fun c => Json.isDigit_natDigits),Json.natOf_natDigits]
  unfold integer?
  split
  · exact absurd ‹_› (natDigits_ne n ['0'] _ (by decide))
  · exact absurd ‹_› (natDigits_ne n ['0'] _ (by decide))
  · exact absurd ‹_› (natDigits_ne n ['0'] _ (by decide))
  · simp [unsign_natDigits,whole?_natDigits,hmagnitude,integerWithin?_nat hn]

theorem scalarOf?_natDigits {n : Nat} (hn : 2*n < UInt64.size) :
    scalarOf? (natDigits n) = some (.integer n) := by
  have htrue : natDigits n ≠ ['t','r','u','e'] := natDigits_ne n [] _ (by decide)
  have hfalse : natDigits n ≠ ['f','a','l','s','e'] := natDigits_ne n [] _ (by decide)
  rw [scalarOf?,if_neg htrue,if_neg hfalse,
    isMoment_figures (fun c => Json.isDigit_natDigits),integer?_natDigits hn]
  rfl

theorem run_figures {ds : List Char} (h : ∀ c ∈ ds, c.isDigit = true) (rest : List Char) :
    run (ds ++ '\n' :: rest) = (ds, '\n' :: rest) := by
  have hfeed : isRun '\n' = false := by decide
  have htake : (ds ++ '\n' :: rest).takeWhile isRun = ds := by
    rw [List.takeWhile_append_of_pos (isRun_figures h)]
    simp [hfeed]
  have hdrop : (ds ++ '\n' :: rest).dropWhile isRun = '\n' :: rest := by
    rw [List.dropWhile_append_of_pos (isRun_figures h)]
    simp [hfeed]
  simp only [run,htake,hdrop]
  split
  · cases ‹_›
  · rfl

theorem scalar?_natDigits {n : Nat} (hn : 2*n < UInt64.size) (rest : List Char) :
    scalar? (natDigits n ++ '\n' :: rest) = some (.integer n, '\n' :: rest) := by
  rw [scalar?,run_figures (fun c => Json.isDigit_natDigits)]
  simp [scalarOf?_natDigits hn]

end ReasonAct.Toml
