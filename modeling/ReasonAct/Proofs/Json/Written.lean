import Mathlib.Data.List.TakeWhile
import ReasonAct.Json.Source
/-!
Which pieces of JSON text read back as they were written. A number does when its own text is read
as that number again; a piece does when its numbers do, nothing in it is unreadable, and it nests
no deeper than a reader allows.
-/
set_option autoImplicit false

namespace ReasonAct.Json

namespace Source

@[elab_as_elim]
theorem induct {motive : Source → Prop} (unreadable : motive .unreadable) (null : motive .null)
    (bool : ∀ b, motive (.bool b)) (number : ∀ n, motive (.number n))
    (string : ∀ s, motive (.string s)) (array : ∀ xs, (∀ x ∈ xs, motive x) → motive (.array xs))
    (object : ∀ fs, (∀ f ∈ fs, motive f.2) → motive (.object fs)) : ∀ s, motive s
  | .unreadable => unreadable
  | .null => null
  | .bool b => bool b
  | .number n => number n
  | .string s => string s
  | .array xs => array xs fun x _ => induct unreadable null bool number string array object x
  | .object fs =>
    object fs fun f _ => induct unreadable null bool number string array object f.2
termination_by s => sizeOf s
decreasing_by
  · have := List.sizeOf_lt_of_mem ‹x ∈ xs›
    simp only [Source.array.sizeOf_spec]
    omega
  · have := List.sizeOf_lt_of_mem ‹f ∈ fs›
    have : sizeOf f = 1 + sizeOf f.1 + sizeOf f.2 := by cases f; rfl
    simp only [Source.object.sizeOf_spec]
    omega

end Source

open Decimal

theorem tail_nil_of_toDigits {n : Nat} {ds : List Char} (h : natDigits n = '0' :: ds) :
    ds = [] := by
  unfold natDigits at h
  induction n using Nat.strongRecOn generalizing ds with
  | _ n ih =>
    by_cases hn : n < 10
    · rw [Nat.toDigits_of_lt_base hn] at h
      exact (List.cons.inj h).2.symm
    · rw [Nat.toDigits_of_base_le (by decide) (by omega)] at h
      obtain ⟨es,hes⟩ : ∃ es, Nat.toDigits 10 (n/10) = '0' :: es := by
        cases hd : Nat.toDigits 10 (n/10) with
        | nil => exact absurd hd Nat.toDigits_ne_nil
        | cons d es => rw [hd] at h; exact ⟨es,by rw [(List.cons.inj h).1]⟩
      have hnil := ih (n/10) (by omega) hes
      have hvalue := Nat.ofDigitChars_toDigits (n := n/10) (b := 10) (by decide) (by decide)
      rw [hes,hnil] at hvalue
      simp [Nat.ofDigitChars_cons] at hvalue
      omega

theorem isDigit_natDigits {n : Nat} {c : Char} (h : c ∈ natDigits n) : c.isDigit = true :=
  Nat.isDigit_of_mem_toDigits (by decide) (by decide) h

theorem figures_natDigits (n : Nat) : figures (natDigits n) = (natDigits n,[]) := by
  have h : ∀ c ∈ natDigits n, c.isDigit = true := fun c => isDigit_natDigits
  rw [figures,List.takeWhile_eq_self_iff.mpr h,List.dropWhile_eq_nil_iff.mpr h]

theorem natOf_natDigits (n : Nat) : natOf (natDigits n) = n :=
  Nat.ofDigitChars_toDigits (by decide) (by decide)

theorem Numeral.ofChars?_negative (n : Nat) :
    ofChars? ('-' :: natDigits n) = some ⟨true,natDigits n,[],none⟩ := by
  simp only [ofChars?,figures_natDigits]
  split
  · exact absurd ‹_› Nat.toDigits_ne_nil
  · exact absurd (tail_nil_of_toDigits ‹_›) (by simp)
  · rfl

theorem Numeral.ofChars?_natDigits (n : Nat) :
    ofChars? (natDigits n) = some ⟨false,natDigits n,[],none⟩ := by
  have hfigures := figures_natDigits n
  cases hd : natDigits n with
  | nil => exact absurd hd Nat.toDigits_ne_nil
  | cons d ds =>
    have hsign : d ≠ '-' := by
      rintro rfl
      exact absurd (isDigit_natDigits (n := n) (c := '-') (by simp [hd])) (by decide)
    rw [hd] at hfigures
    simp only [ofChars?,List.cons.injEq,hsign,false_and,imp_self,implies_true,hfigures]
    split
    · contradiction
    · exact absurd (tail_nil_of_toDigits (hd.trans ‹_›)) (by simp)
    · rfl

def Number.Exact (n : Number) : Prop := ∃ m, Numeral.ofChars? n.chars = some m ∧ m.number? = some n

def Number.InRange : Number → Prop
  | .int n => -UInt64.size ≤ 2*n ∧ n < UInt64.size
  | .float _ => True

theorem Numeral.number?_inRange {m : Numeral} {x : Number} (h : m.number? = some x) :
    x.InRange := by
  unfold number? at h
  dsimp only at h
  split at h
  · rename_i hcond
    simp only [Bool.and_eq_true,decide_eq_true_eq] at hcond
    cases h
    simp only [Number.InRange]
    omega
  split at h
  · rename_i hcond
    simp only [Bool.and_eq_true,decide_eq_true_eq] at hcond
    cases h
    simp only [Number.InRange]
    omega
  split at h
  · cases h
    trivial
  · contradiction

theorem Number.Exact.inRange {x : Number} (h : x.Exact) : x.InRange :=
  have ⟨_,_,hx⟩ := h
  Numeral.number?_inRange hx

theorem Number.exact_int {n : Int} (hlow : -UInt64.size ≤ 2*n) (hhigh : n < UInt64.size) :
    (int n).Exact := by
  simp only [Exact,chars,intDigits]
  split
  · have h : 0 < n.natAbs ∧ 2*n.natAbs ≤ UInt64.size := by omega
    refine ⟨_,Numeral.ofChars?_negative n.natAbs,?_⟩
    simp only [Numeral.number?,Numeral.isWhole,natOf_natDigits,h,List.isEmpty_nil,
      Option.isNone_none,Bool.and_self,Bool.not_true,Bool.and_false,Bool.false_and,
      Bool.false_eq_true,if_false,decide_true,if_true,Option.some.injEq,int.injEq]
    omega
  · have h : n.natAbs < UInt64.size := by omega
    refine ⟨_,Numeral.ofChars?_natDigits n.natAbs,?_⟩
    simp only [Numeral.number?,Numeral.isWhole,natOf_natDigits,h,List.isEmpty_nil,
      Option.isNone_none,Bool.and_self,Bool.not_false,decide_true,if_true,Option.some.injEq,
      int.injEq]
    omega

namespace Source

/-- What reads back from its text inside so many levels less than a reader allows. -/
inductive Within : Nat → Source → Prop
  | null (n : Nat) : Within n .null
  | bool (n : Nat) (b : Bool) : Within n (.bool b)
  | number (n : Nat) {x : Number} (exact : x.Exact) : Within n (.number x)
  | string (n : Nat) (s : String) : Within n (.string s)
  | array {n : Nat} {xs : List Source} (items : ∀ x ∈ xs, Within n x) : Within (n+1) (.array xs)
  | object {n : Nat} {fs : List (String × Source)} (fields : ∀ f ∈ fs, Within n f.2) :
      Within (n+1) (.object fs)

@[simp] theorem within_null (n : Nat) : Within n .null := .null n
@[simp] theorem within_bool (n : Nat) (b : Bool) : Within n (.bool b) := .bool n b
@[simp] theorem within_string (n : Nat) (s : String) : Within n (.string s) := .string n s

@[simp] theorem within_number {n : Nat} {x : Number} : Within n (.number x) ↔ x.Exact :=
  ⟨fun | .number _ h => h,.number n⟩

@[simp] theorem within_array {n : Nat} {xs : List Source} :
    Within (n+1) (.array xs) ↔ ∀ x ∈ xs, Within n x := ⟨fun | .array h => h,.array⟩

@[simp] theorem within_object {n : Nat} {fs : List (String × Source)} :
    Within (n+1) (.object fs) ↔ ∀ f ∈ fs, Within n f.2 := ⟨fun | .object h => h,.object⟩

theorem Within.mono {n m : Nat} {s : Source} (h : Within n s) (hnm : n ≤ m) : Within m s := by
  induction h generalizing m with
  | null => exact .null m
  | bool _ b => exact .bool m b
  | number _ exact => exact .number m exact
  | string _ s => exact .string m s
  | array _ ih =>
    obtain ⟨m,rfl⟩ := Nat.exists_eq_add_of_lt hnm
    exact .array fun x hx => ih x hx (by omega)
  | object _ ih =>
    obtain ⟨m,rfl⟩ := Nat.exists_eq_add_of_lt hnm
    exact .object fun f hf => ih f hf (by omega)

/-- What has a value and nests no deeper than so many levels, whether its numbers are read back or
not. -/
inductive Nested : Nat → Source → Prop
  | null (n : Nat) : Nested n .null
  | bool (n : Nat) (b : Bool) : Nested n (.bool b)
  | number (n : Nat) {x : Number} (range : x.InRange) : Nested n (.number x)
  | string (n : Nat) (s : String) : Nested n (.string s)
  | array {n : Nat} {xs : List Source} (items : ∀ x ∈ xs, Nested n x) : Nested (n+1) (.array xs)
  | object {n : Nat} {fs : List (String × Source)} (fields : ∀ f ∈ fs, Nested n f.2) :
      Nested (n+1) (.object fs)

theorem Within.nested {n : Nat} {s : Source} (h : Within n s) : Nested n s := by
  induction h with
  | null n => exact .null n
  | bool n b => exact .bool n b
  | number n exact => exact .number n exact.inRange
  | string n s => exact .string n s
  | array _ ih => exact .array ih
  | object _ ih => exact .object ih

def Readable (s : Source) : Prop := s.value?.isSome

theorem valueItems?_isSome {xs : List Source} :
    (valueItems? xs).isSome ↔ ∀ x ∈ xs, x.Readable := by
  induction xs with
  | nil => simp [valueItems?]
  | cons x xs ih =>
    rw [List.forall_mem_cons,← ih,Readable]
    cases hx : x.value? <;> cases hxs : valueItems? xs <;> simp [valueItems?,hx,hxs]

theorem valueFields?_isSome {fs : List (String × Source)} :
    (valueFields? fs).isSome ↔ ∀ f ∈ fs, f.2.Readable := by
  induction fs with
  | nil => simp [valueFields?]
  | cons f fs ih =>
    obtain ⟨k,x⟩ := f
    rw [List.forall_mem_cons,← ih,Readable]
    cases hx : x.value? <;> cases hfs : valueFields? fs <;> simp [valueFields?,hx,hfs]

@[simp] theorem readable_null : Readable .null := rfl
@[simp] theorem readable_bool (b : Bool) : Readable (.bool b) := rfl
@[simp] theorem readable_number (n : Number) : Readable (.number n) := rfl
@[simp] theorem readable_string (s : String) : Readable (.string s) := rfl

@[simp] theorem readable_array {xs : List Source} :
    Readable (.array xs) ↔ ∀ x ∈ xs, x.Readable := by
  rw [← valueItems?_isSome]
  simp [Readable,value?]

@[simp] theorem readable_object {fs : List (String × Source)} :
    Readable (.object fs) ↔ ∀ f ∈ fs, f.2.Readable := by
  rw [← valueFields?_isSome]
  simp [Readable,value?]

theorem Nested.readable {n : Nat} {s : Source} (h : Nested n s) : s.Readable := by
  induction h with
  | null => exact readable_null
  | bool _ b => exact readable_bool b
  | number _ _ => exact readable_number _
  | string _ s => exact readable_string s
  | array _ ih => exact readable_array.mpr ih
  | object _ ih => exact readable_object.mpr ih

theorem Within.readable {n : Nat} {s : Source} (h : Within n s) : s.Readable :=
  h.nested.readable

end Source

/-- Every object has its keys in strict order. -/
inductive Sorted : Json → Prop
  | null : Sorted .null
  | bool (b : Bool) : Sorted (.bool b)
  | number (n : Number) : Sorted (.number n)
  | string (s : String) : Sorted (.string s)
  | array {xs : List Json} (items : ∀ x ∈ xs, Sorted x) : Sorted (.array xs)
  | object {ms : Members} (keys : ms.Pairwise (·.1 < ·.1)) (members : ∀ m ∈ ms, Sorted m.2) :
      Sorted (.object ms)

theorem Sorted.of_names {ms : Members} (h : (ms.map Prod.fst).Pairwise (· < ·))
    (members : ∀ m ∈ ms, Sorted m.2) : Sorted (.object ms) :=
  .object (List.pairwise_map.mp h) members

theorem Members.insert_last {key : String} {value : Json} {ms : Members}
    (h : ∀ m ∈ ms, m.1 < key) : insert key value ms = ms ++ [(key,value)] := by
  induction ms with
  | nil => rfl
  | cons m ms ih =>
    obtain ⟨k,v⟩ := m
    have hk : k < key := h (k,v) (by simp)
    have hne : key ≠ k := by rintro rfl; exact String.lt_irrefl key hk
    rw [insert,if_neg (String.lt_asymm hk),if_neg hne,ih fun m hm => h m (by simp [hm])]
    rfl

theorem Members.foldl_insert (acc : Members) {ms : Members} (h : (acc ++ ms).Pairwise (·.1 < ·.1)) :
    ms.foldl (fun ms f => insert f.1 f.2 ms) acc = acc ++ ms := by
  induction ms generalizing acc with
  | nil => simp
  | cons m ms ih =>
    have hlast : ∀ a ∈ acc, a.1 < m.1 := fun a ha =>
      (List.pairwise_append.mp h).2.2 a ha m (by simp)
    rw [List.foldl_cons,insert_last hlast,ih _ (by simpa using h)]
    simp

theorem Members.ofList_sorted {ms : Members} (h : ms.Pairwise (·.1 < ·.1)) : ofList ms = ms :=
  foldl_insert [] h

open Source

theorem sourceItems_eq (xs : List Json) : sourceItems xs = xs.map source := by
  induction xs with
  | nil => rfl
  | cons x xs ih => rw [sourceItems,ih,List.map_cons]

theorem sourceMembers_eq (ms : Members) : sourceMembers ms = ms.map fun m => (m.1,m.2.source) := by
  induction ms with
  | nil => rfl
  | cons m ms ih => rw [sourceMembers,ih,List.map_cons]

theorem valueItems?_source {xs : List Json} (h : ∀ x ∈ xs, x.source.value? = some x) :
    valueItems? (sourceItems xs) = some xs := by
  induction xs with
  | nil => rfl
  | cons x xs ih => simp_all [sourceItems,valueItems?]

theorem valueFields?_source {ms : Members} (h : ∀ m ∈ ms, m.2.source.value? = some m.2) :
    valueFields? (sourceMembers ms) = some ms := by
  induction ms with
  | nil => rfl
  | cons m ms ih => simp_all [sourceMembers,valueFields?]

theorem Sorted.value?_source {j : Json} (h : j.Sorted) : j.source.value? = some j := by
  induction h with
  | null | bool _ | number _ | string _ => rfl
  | array _ ih => simp [source,value?,valueItems?_source ih]
  | object keys _ ih =>
    simp [source,value?,valueFields?_source ih,ofFields,Members.ofList_sorted keys]

end ReasonAct.Json
