import ReasonAct.Proofs.Text.Blank
import ReasonAct.Time.Rfc3339
/-!
A moment of the years 0 to 9999 that is no leap second is read back from its text. Each number of
the text has as many figures as its reader takes at most, so it ends where it was written to end.
-/
set_option autoImplicit false

namespace ReasonAct.Instant

open Text (trimStart)

theorem twoDigits_eq (n : Nat) : twoDigits n = padded 2 n := by simp [twoDigits,padded]

@[simp] theorem length_padded (k n : Nat) : (padded k n).length = k := by
  induction k generalizing n with
  | zero => rfl
  | succ k ih => simp [padded,ih]

theorem isDigit_digitChar : ∀ n < 10, (Nat.digitChar n).isDigit = true := by decide

theorem toNat_digitChar : ∀ n < 10, (Nat.digitChar n).toNat - '0'.toNat = n := by decide

theorem isDigit_padded (k : Nat) {n : Nat} : ∀ c ∈ padded k n, c.isDigit = true := by
  induction k generalizing n with
  | zero => simp [padded]
  | succ k ih =>
    intro c hc
    rcases List.mem_append.mp hc with hc | hc
    · exact ih c hc
    · rw [List.mem_singleton.mp hc]
      exact isDigit_digitChar (n%10) (by omega)

theorem ofDigitChars_padded (k n : Nat) :
    Nat.ofDigitChars 10 (padded k n) 0 = n % Nat.pow 10 k := by
  induction k generalizing n with
  | zero => simp [padded,Nat.ofDigitChars,Nat.mod_one]
  | succ k ih =>
    have hpow : Nat.pow 10 (k+1) = 10*Nat.pow 10 k := Nat.pow_succ'
    rw [padded,Nat.ofDigitChars_append,ih,Nat.ofDigitChars_cons,toNat_digitChar (n%10) (by omega),
      hpow,Nat.mod_mul,Nat.add_comm]
    rfl

def Solid (cs : List Char) : Prop := trimStart cs = cs

theorem solid_cons {c : Char} (cs : List Char) (h : Text.isBlank c = false) : Solid (c :: cs) := by
  simp [Solid,trimStart,h]

theorem padded_cons (k n : Nat) : ∃ d ds, padded (k+1) n = d :: ds ∧ d.isDigit = true := by
  cases hd : padded (k+1) n with
  | nil => exact absurd (congrArg List.length hd) (by simp)
  | cons d ds => exact ⟨d,ds,rfl,isDigit_padded (k+1) d (by rw [hd]; simp)⟩

theorem solid_padded (k n : Nat) (rest : List Char) : Solid (padded (k+1) n ++ rest) := by
  obtain ⟨d,ds,hds,hd⟩ := padded_cons k n
  rw [hds]
  exact solid_cons (ds ++ rest) (Text.isBlank_of_isDigit hd)

theorem number?_padded (k n : Nat) (h : n < Nat.pow 10 (k+1)) (rest : List Char) :
    number? (k+1) (padded (k+1) n ++ rest) = some (n,rest) := by
  have hsolid : trimStart (padded (k+1) n ++ rest) = padded (k+1) n ++ rest :=
    solid_padded k n rest
  have htake : (padded (k+1) n ++ rest).take (k+1) = padded (k+1) n :=
    List.take_left' (length_padded (k+1) n)
  have hdrop : (padded (k+1) n ++ rest).drop (k+1) = rest :=
    List.drop_left' (length_padded (k+1) n)
  have hfigures : (padded (k+1) n).takeWhile Char.isDigit = padded (k+1) n :=
    List.takeWhile_eq_self_iff.mpr (isDigit_padded (k+1))
  have hne : (padded (k+1) n).isEmpty = false := by
    simp [← List.length_eq_zero_iff]
  simp only [number?,hsolid,htake,hfigures,hne,length_padded,hdrop,ofDigitChars_padded,
    Nat.mod_eq_of_lt h]
  rfl

theorem skip?_cons {c : Char} (h : Text.isBlank c = false) (rest : List Char) :
    skip? c (c :: rest) = some rest := by
  simp [skip?,trimStart,h]

theorem year?_yearChars {y : Int} (hlow : 0 ≤ y) (hhigh : y ≤ 9999) (rest : List Char) :
    year? (yearChars y ++ rest) = some (y,rest) := by
  have hnumber := number?_padded 3 y.toNat (show y.toNat < 10000 by omega) rest
  have hsolid : trimStart (padded 4 y.toNat ++ rest) = padded 4 y.toNat ++ rest :=
    solid_padded 3 y.toNat rest
  obtain ⟨d,ds,hds,hd⟩ := padded_cons 3 y.toNat
  rw [yearChars,if_pos ⟨hlow,hhigh⟩,year?,hsolid]
  split
  · rw [hds] at *
    simp_all
  · rw [hds] at *
    simp_all
  · simp [hnumber]
    omega

theorem nanos?_padded (k n : Nat) (h : n < Nat.pow 10 (k+1)) (hk : k < 9) :
    nanos? ('.' :: (padded (k+1) n ++ ['Z'])) = some (n*Nat.pow 10 (8-k),['Z']) := by
  have hfigures : (padded (k+1) n ++ ['Z']).takeWhile Char.isDigit = padded (k+1) n := by
    rw [List.takeWhile_append_of_pos (isDigit_padded (k+1))]
    simp
  have hrest : (padded (k+1) n ++ ['Z']).dropWhile Char.isDigit = ['Z'] := by
    rw [List.dropWhile_append_of_pos (isDigit_padded (k+1))]
    rfl
  have hkept : (padded (k+1) n).take 9 = padded (k+1) n := List.take_of_length_le (by simp; omega)
  have hne : (padded (k+1) n).isEmpty = false := by simp [← List.length_eq_zero_iff]
  have hvalue : Nat.ofDigitChars 10 (padded (k+1) n) 0 = n :=
    (ofDigitChars_padded (k+1) n).trans (Nat.mod_eq_of_lt h)
  simp [nanos?,hfigures,hrest,hkept,hne,hvalue]

theorem nanos?_fractionChars {n : Nat} (h : n < 1000000000) :
    nanos? (fractionChars n ++ ['Z']) = some (n,['Z']) := by
  unfold fractionChars
  split
  · subst n; rfl
  split
  · have hplaces : n/1000000*1000000 = n := by omega
    rw [List.cons_append,nanos?_padded 2 (n/1000000) (show _ < 1000 by omega) (by omega)]
    exact congrArg (fun m => some (m,['Z'])) hplaces
  split
  · have hplaces : n/1000*1000 = n := by omega
    rw [List.cons_append,nanos?_padded 5 (n/1000) (show _ < 1000000 by omega) (by omega)]
    exact congrArg (fun m => some (m,['Z'])) hplaces
  · rw [List.cons_append,nanos?_padded 8 n h (by omega)]
    simp

theorem of?_self (i : Instant) : of? i.date i.time = some i := by
  simp [of?,i.date_valid,i.time_valid]

theorem ofLocal?_zero (i : Instant) : ofLocal? i.date i.time 0 = some i := by
  obtain ⟨hhour,hminute,_⟩ := i.time_valid
  have hhours : ((i.time.hour : Int)*60+i.time.minute-0).toNat/60 = i.time.hour := by omega
  have hminutes : ((i.time.hour : Int)*60+i.time.minute-0).toNat%60 = i.time.minute := by omega
  rw [ofLocal?,if_pos ⟨i.date_valid,i.time_valid,by decide,by decide⟩]
  dsimp only
  rw [if_neg (by omega),if_neg (by omega)]
  dsimp only
  rw [hhours,hminutes]
  exact of?_self i

/-- A moment that is written with four figures for the year and sixty seconds to the minute. -/
structure Plain (i : Instant) : Prop where
  after : 1 ≤ i.date.year
  before : i.date.year ≤ 9999
  noLeap : i.time.nanos < 1000000000

theorem daysIn_le (y : Int) (month : Nat) : Calendar.daysIn y month ≤ 31 := by
  unfold Calendar.daysIn
  repeat' split
  all_goals decide

theorem number?_twoDigits {n : Nat} (h : n < 100) (rest : List Char) :
    number? 2 (twoDigits n ++ rest) = some (n,rest) := by
  rw [twoDigits_eq]
  exact number?_padded 1 n h rest

theorem bind_of_eq {α β : Type} {x : Option α} {a : α} (h : x = some a) (f : α → Option β) :
    (x >>= f) = f a := by rw [h]; rfl

theorem Plain.ofChars?_chars {i : Instant} (h : i.Plain) : ofChars? i.chars = some i := by
  obtain ⟨_,_,_,hmonth,_,hday⟩ := i.date_valid
  obtain ⟨hhour,hminute,hsecond,_⟩ := i.time_valid
  have hdays := daysIn_le i.date.year i.date.month
  have hleap : ¬ 1000000000 ≤ i.time.nanos := Nat.not_le_of_lt h.noLeap
  have hnanos : i.time.nanos % 1000000000 = i.time.nanos := Nat.mod_eq_of_lt h.noLeap
  have hsixty : i.time.second ≠ 60 := by omega
  have hyear (rest : List Char) := year?_yearChars (Int.le_of_lt h.after) h.before rest
  have hdash (rest : List Char) : skip? '-' ('-' :: rest) = some rest := skip?_cons rfl rest
  have hcolon (rest : List Char) : skip? ':' (':' :: rest) = some rest := skip?_cons rfl rest
  simp only [chars,localChars,List.append_assoc,List.cons_append,hleap,if_false,hnanos]
  refine (bind_of_eq (hyear _) _).trans ?_
  refine (bind_of_eq (hdash _) _).trans ?_
  refine (bind_of_eq (number?_twoDigits (by omega) _) _).trans ?_
  refine (bind_of_eq (hdash _) _).trans ?_
  refine (bind_of_eq (number?_twoDigits (by omega) _) _).trans ?_
  refine (bind_of_eq (number?_twoDigits (by omega) _) _).trans ?_
  refine (bind_of_eq (hcolon _) _).trans ?_
  refine (bind_of_eq (number?_twoDigits (by omega) _) _).trans ?_
  refine (bind_of_eq (hcolon _) _).trans ?_
  refine (bind_of_eq (number?_twoDigits (by omega) _) _).trans ?_
  refine (bind_of_eq (nanos?_fractionChars h.noLeap) _).trans ?_
  exact (if_neg hsixty).trans (ofLocal?_zero i)

theorem Plain.ofText?_text {i : Instant} (h : i.Plain) : ofText? i.text = some i := by
  simp [ofText?,text,h.ofChars?_chars]

end ReasonAct.Instant
