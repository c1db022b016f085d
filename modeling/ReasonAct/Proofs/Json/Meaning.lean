import Mathlib.Data.List.Sort
import ReasonAct.Proofs.Json.Grammar
/-!
What a JSON text stands for. White space, the order of members, escapes and the ways to write one
number do not matter, and of repeated keys the last counts; the reader gives this value, and gives
one exactly for the texts that have one.
-/
set_option autoImplicit false

namespace ReasonAct.Json

section members

/-! Members in strict order, each key once. -/

theorem Members.mem_iff_lookup {ms : Members} (h : ms.Pairwise (·.1 < ·.1)) {k : String} {v : Json} :
    (k,v) ∈ ms ↔ ms.lookup k = some v := by
  rw [List.lookup_eq_some_iff]
  constructor
  · intro hmem
    obtain ⟨before,after,rfl⟩ := List.append_of_mem hmem
    refine ⟨before,after,rfl,fun p hp => ?_⟩
    have hlt : p.1 < k := (List.pairwise_append.mp h).2.2 p hp (k,v) (by simp)
    simpa using (String.ne_of_lt hlt).symm
  · rintro ⟨before,after,rfl,-⟩
    simp

theorem Members.ext {ms ns : Members} (hm : ms.Pairwise (·.1 < ·.1)) (hn : ns.Pairwise (·.1 < ·.1))
    (h : ∀ k, ms.lookup k = ns.lookup k) : ms = ns := by
  have hantisymm : Std.Antisymm fun m n : String × Json => m.1 < n.1 :=
    ⟨fun _ _ hlt hgt => absurd hgt (String.lt_asymm hlt)⟩
  have hirrefl : Std.Irrefl fun m n : String × Json => m.1 < n.1 :=
    ⟨fun _ => String.lt_irrefl _⟩
  refine hm.eq_of_mem_iff hn fun m => ?_
  rw [← Prod.mk.eta (p := m),mem_iff_lookup hm,mem_iff_lookup hn,h]

theorem Members.lookup_insert (key : String) (value : Json) (ms : Members) (k : String) :
    (insert key value ms).lookup k = List.lookup k ((key,value) :: ms) := by
  induction ms with
  | nil => rfl
  | cons m ms ih =>
    obtain ⟨k',v'⟩ := m
    rw [insert]
    split
    · rfl
    split
    · subst k'
      rw [List.lookup_cons,List.lookup_cons,List.lookup_cons]
      split <;> rfl
    · rename_i hne
      rw [List.lookup_cons,ih,List.lookup_cons,List.lookup_cons,List.lookup_cons]
      cases h : k == key <;> cases h' : k == k' <;> simp_all

theorem Members.mem_insert {key : String} {value : Json} {ms : Members} {m : String × Json}
    (h : m ∈ insert key value ms) : m = (key,value) ∨ m ∈ ms := by
  induction ms with
  | nil => simpa [insert] using h
  | cons n ms ih =>
    rw [insert] at h
    split at h
    · simpa using h
    split at h
    · rcases List.mem_cons.mp h with h | h
      · exact .inl h
      · exact .inr (List.mem_cons_of_mem _ h)
    · rcases List.mem_cons.mp h with rfl | h
      · exact .inr (List.mem_cons_self ..)
      · exact (ih h).imp_right (List.mem_cons_of_mem _)

theorem Members.insert_ordered {key : String} {value : Json} {ms : Members}
    (h : ms.Pairwise (·.1 < ·.1)) : (insert key value ms).Pairwise (·.1 < ·.1) := by
  induction ms with
  | nil => exact List.pairwise_singleton _ _
  | cons m ms ih =>
    obtain ⟨hfirst,hrest⟩ := List.pairwise_cons.mp h
    rw [insert]
    split
    · rename_i hlt
      refine List.pairwise_cons.mpr ⟨List.forall_mem_cons.mpr ⟨hlt,fun n hn => ?_⟩,h⟩
      exact String.lt_trans hlt (hfirst n hn)
    split
    · subst key
      exact List.pairwise_cons.mpr ⟨hfirst,hrest⟩
    · rename_i hnlt hne
      refine List.pairwise_cons.mpr ⟨fun n hn => ?_,ih hrest⟩
      rcases mem_insert hn with rfl | hn
      · exact Std.lt_of_le_of_ne (Std.not_lt.mp hnlt) (Ne.symm hne)
      · exact hfirst n hn

/-- The members that count among those read: each key once, in order, with its last value. -/
structure Settles (read ms : Members) : Prop where
  ordered : ms.Pairwise (·.1 < ·.1)
  last : ∀ k, ms.lookup k = read.reverse.lookup k

theorem Members.settles_ofList (read : Members) : Settles read (ofList read) := by
  have hfold (acc : Members) (hacc : acc.Pairwise (·.1 < ·.1)) :
      (read.foldl (fun ms f => insert f.1 f.2 ms) acc).Pairwise (·.1 < ·.1) ∧
        ∀ k, (read.foldl (fun ms f => insert f.1 f.2 ms) acc).lookup k =
          (read.reverse ++ acc).lookup k := by
    induction read generalizing acc with
    | nil => exact ⟨hacc,fun _ => rfl⟩
    | cons f read ih =>
      obtain ⟨hordered,hlast⟩ := ih (insert f.1 f.2 acc) (insert_ordered hacc)
      refine ⟨hordered,fun k => ?_⟩
      rw [List.foldl_cons,hlast,List.reverse_cons,List.append_assoc,List.lookup_append,
        List.lookup_append,lookup_insert]
      rfl
  obtain ⟨hordered,hlast⟩ := hfold [] List.Pairwise.nil
  rw [List.append_nil] at hlast
  exact ⟨hordered,hlast⟩

theorem Settles.eq_ofList {read ms : Members} (h : Settles read ms) : ms = Members.ofList read :=
  have hlist := Members.settles_ofList read
  Members.ext h.ordered hlist.ordered fun k => (h.last k).trans (hlist.last k).symm

theorem Settles.mem {read ms : Members} (h : Settles read ms) {m : String × Json} (hm : m ∈ ms) :
    m ∈ read := by
  have hlookup := (Members.mem_iff_lookup h.ordered).mp hm
  rw [h.last] at hlookup
  obtain ⟨before,after,hread,-⟩ := List.lookup_eq_some_iff.mp hlookup
  rw [← List.mem_reverse,hread]
  simp

end members

/-- The value that a piece of text stands for. -/
inductive Source.Means : Source → Json → Prop
  | null : Means .null .null
  | bool (b : Bool) : Means (.bool b) (.bool b)
  | number (n : Number) : Means (.number n) (.number n)
  | string (s : String) : Means (.string s) (.string s)
  | array {xs : List Source} {vs : List Json} (length : xs.length = vs.length)
      (items : ∀ p ∈ xs.zip vs, Means p.1 p.2) : Means (.array xs) (.array vs)
  | object {fs : List (String × Source)} {read ms : Members}
      (keys : fs.map Prod.fst = read.map Prod.fst)
      (values : ∀ p ∈ fs.zip read, Means p.1.2 p.2.2) (settles : Settles read ms) :
      Means (.object fs) (.object ms)

/-- Every double in the value is read back from its own text. -/
inductive Faithful : Json → Prop
  | null : Faithful .null
  | bool (b : Bool) : Faithful (.bool b)
  | int (n : Int) : Faithful (.number (.int n))
  | double {x : Float} (exact : (Number.float x).Exact) : Faithful (.number (.float x))
  | string (s : String) : Faithful (.string s)
  | array {vs : List Json} (items : ∀ v ∈ vs, Faithful v) : Faithful (.array vs)
  | object {ms : Members} (members : ∀ m ∈ ms, Faithful m.2) : Faithful (.object ms)

namespace Source

theorem valueItems?_eq_some_iff {xs : List Source} {vs : List Json} : valueItems? xs = some vs ↔
    xs.length = vs.length ∧ ∀ p ∈ xs.zip vs, p.1.value? = some p.2 := by
  induction xs generalizing vs with
  | nil => cases vs <;> simp [valueItems?]
  | cons x xs ih =>
    simp only [valueItems?,Option.bind_eq_bind,Option.bind_eq_some_iff,Option.pure_def,
      Option.some.injEq,ih]
    constructor
    · rintro ⟨v,hv,vs,⟨hlength,hvs⟩,rfl⟩
      exact ⟨congrArg _ hlength,List.forall_mem_cons.mpr ⟨hv,hvs⟩⟩
    · rintro ⟨hlength,hvs⟩
      cases vs with
      | nil => contradiction
      | cons v vs =>
        obtain ⟨hv,hvs⟩ := List.forall_mem_cons.mp hvs
        exact ⟨v,hv,vs,⟨Nat.succ.inj hlength,hvs⟩,rfl⟩

theorem valueFields?_eq_some_iff {fs : List (String × Source)} {read : Members} :
    valueFields? fs = some read ↔ fs.map Prod.fst = read.map Prod.fst ∧
      ∀ p ∈ fs.zip read, p.1.2.value? = some p.2.2 := by
  induction fs generalizing read with
  | nil => cases read <;> simp [valueFields?]
  | cons f fs ih =>
    obtain ⟨k,x⟩ := f
    simp only [valueFields?,Option.bind_eq_bind,Option.bind_eq_some_iff,Option.pure_def,
      Option.some.injEq,ih]
    constructor
    · rintro ⟨v,hv,read,⟨hkeys,hread⟩,rfl⟩
      exact ⟨congrArg _ hkeys,List.forall_mem_cons.mpr ⟨hv,hread⟩⟩
    · rintro ⟨hkeys,hread⟩
      cases read with
      | nil => contradiction
      | cons m read =>
        obtain ⟨k',v⟩ := m
        obtain ⟨rfl,hrest⟩ := List.cons.inj hkeys
        obtain ⟨hv,hread⟩ := List.forall_mem_cons.mp hread
        exact ⟨v,hv,read,⟨hrest,hread⟩,rfl⟩

theorem means_of_value? {s : Source} {v : Json} (h : s.value? = some v) : s.Means v := by
  induction s using Source.induct generalizing v with
  | unreadable => contradiction
  | null => cases h; exact .null
  | bool b => cases h; exact .bool b
  | number n => cases h; exact .number n
  | string s => cases h; exact .string s
  | array xs ih =>
    obtain ⟨vs,hvs,rfl⟩ := Option.map_eq_some_iff.mp h
    obtain ⟨hlength,hvs⟩ := valueItems?_eq_some_iff.mp hvs
    exact .array hlength fun p hp => ih p.1 (List.of_mem_zip hp).1 (hvs p hp)
  | object fs ih =>
    obtain ⟨read,hread,rfl⟩ := Option.map_eq_some_iff.mp h
    obtain ⟨hkeys,hread⟩ := valueFields?_eq_some_iff.mp hread
    exact .object hkeys (fun p hp => ih p.1 (List.of_mem_zip hp).1 (hread p hp))
      (Members.settles_ofList read)

theorem value?_eq_some_iff {s : Source} {v : Json} : s.value? = some v ↔ s.Means v := by
  refine ⟨means_of_value?,fun h => ?_⟩
  induction h with
  | null | bool _ | number _ | string _ => rfl
  | array length _ ih =>
    rw [value?,valueItems?_eq_some_iff.mpr ⟨length,ih⟩]
    rfl
  | object keys _ settles ih =>
    rw [value?,valueFields?_eq_some_iff.mpr ⟨keys,ih⟩,settles.eq_ofList]
    rfl

theorem exists_mem_zip {α β : Type} {xs : List α} {ys : List β} (h : xs.length = ys.length) {y : β}
    (hy : y ∈ ys) : ∃ x, (x,y) ∈ xs.zip ys := by
  rw [← List.map_snd_zip h.ge] at hy
  obtain ⟨⟨x,_⟩,hmem,rfl⟩ := List.mem_map.mp hy
  exact ⟨x,hmem⟩

theorem Means.sorted {s : Source} {v : Json} (h : s.Means v) : v.Sorted := by
  induction h with
  | null => exact .null
  | bool b => exact .bool b
  | number n => exact .number n
  | string s => exact .string s
  | array length _ ih =>
    refine .array fun v hv => ?_
    obtain ⟨x,hx⟩ := exists_mem_zip length hv
    exact ih _ hx
  | object keys _ settles ih =>
    refine .object settles.ordered fun m hm => ?_
    obtain ⟨f,hf⟩ := exists_mem_zip (by simpa using congrArg List.length keys) (settles.mem hm)
    exact ih _ hf

theorem Means.nested {s : Source} {v : Json} (h : s.Means v) {n : Nat} (hn : s.Nested n) :
    v.source.Nested n := by
  induction h generalizing n with
  | null | bool _ | string _ | number _ => exact hn
  | array length _ ih =>
    cases hn with
    | array hitems =>
      rw [source,sourceItems_eq]
      refine .array fun s hs => ?_
      obtain ⟨v,hv,rfl⟩ := List.mem_map.mp hs
      obtain ⟨x,hx⟩ := exists_mem_zip length hv
      exact ih _ hx (hitems x (List.of_mem_zip hx).1)
  | object keys _ settles ih =>
    cases hn with
    | object hfields =>
      rw [source,sourceMembers_eq]
      refine .object fun f hf => ?_
      obtain ⟨m,hm,rfl⟩ := List.mem_map.mp hf
      obtain ⟨x,hx⟩ := exists_mem_zip (by simpa using congrArg List.length keys) (settles.mem hm)
      exact ih _ hx (hfields x (List.of_mem_zip hx).1)

end Source

/-- Integers are read back as they are; of the doubles it must be known. -/
theorem Faithful.within {v : Json} (h : Faithful v) {n : Nat} (hn : v.source.Nested n) :
    v.source.Within n := by
  induction h generalizing n with
  | null => exact .null n
  | bool b => exact .bool n b
  | string s => exact .string n s
  | double exact => exact .number n exact
  | int i =>
    cases hn with
    | number _ range => exact .number n (Number.exact_int range.1 range.2)
  | array _ ih =>
    rw [source,sourceItems_eq] at hn ⊢
    cases hn with
    | array hitems =>
      refine .array fun s hs => ?_
      obtain ⟨v,hv,rfl⟩ := List.mem_map.mp hs
      exact ih v hv (hitems _ hs)
  | object _ ih =>
    rw [source,sourceMembers_eq] at hn ⊢
    cases hn with
    | object hfields =>
      refine .object fun f hf => ?_
      obtain ⟨m,hm,rfl⟩ := List.mem_map.mp hf
      exact ih m hm (hfields _ hf)

def IsJson (n : Nat) (t : String) (v : Json) : Prop :=
  ∃ s : Source, Lexed t.toList s.tokens ∧ s.Nested n ∧ s.Means v

/-- The texts that are read are the JSON texts that nest no deeper than the limit, and they are read
as their values. -/
theorem parse?_eq_some_iff {t : String} {v : Json} :
    parse? t = some v ↔ IsJson nestingLimit t v := by
  rw [parse?,Option.bind_eq_some_iff]
  constructor
  · rintro ⟨s,hs,hv⟩
    have hread : s.Readable := by simp [Source.Readable,hv]
    obtain ⟨hlexed,hnested⟩ := Source.parse?_readable_iff.mp ⟨hs,hread⟩
    exact ⟨s,hlexed,hnested,Source.value?_eq_some_iff.mp hv⟩
  · rintro ⟨s,hlexed,hnested,hmeans⟩
    obtain ⟨hs,-⟩ := Source.parse?_readable_iff.mpr ⟨hlexed,hnested⟩
    exact ⟨s,hs,Source.value?_eq_some_iff.mpr hmeans⟩

theorem IsJson.unique {t : String} {v w : Json} (hv : IsJson nestingLimit t v)
    (hw : IsJson nestingLimit t w) : v = w :=
  Option.some.inj ((parse?_eq_some_iff.mpr hv).symm.trans (parse?_eq_some_iff.mpr hw))

end ReasonAct.Json
