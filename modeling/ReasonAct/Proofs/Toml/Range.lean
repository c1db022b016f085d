import ReasonAct.Toml.Parser
set_option autoImplicit false

namespace ReasonAct

/-- No integer in it needs more than 63 bits besides its sign. -/
inductive Json.Source.Bounded : Json.Source → Prop
  | unreadable : Bounded .unreadable
  | null : Bounded .null
  | bool (b : Bool) : Bounded (.bool b)
  | integer {n : Int} (h : 2*n < UInt64.size) : Bounded (.number (.int n))
  | float (x : Float) : Bounded (.number (.float x))
  | string (s : String) : Bounded (.string s)
  | array {xs : List Json.Source} (h : ∀ x ∈ xs, Bounded x) : Bounded (.array xs)
  | object {fs : List (String × Json.Source)} (h : ∀ f ∈ fs, Bounded f.2) : Bounded (.object fs)

namespace Toml

def Bounded (t : Toml) : Prop := t.source.Bounded

theorem sourceItems_eq (xs : List Toml) : sourceItems xs = xs.map source := by
  induction xs with
  | nil => rfl
  | cons x xs ih => rw [sourceItems,ih,List.map_cons]

theorem sourceEntries_eq (es : Entries) : sourceEntries es = es.map fun e => (e.1, e.2.source) := by
  induction es with
  | nil => rfl
  | cons e es ih => rw [sourceEntries,ih,List.map_cons]

theorem sourceTables_eq (ts : List Entries) :
    sourceTables ts = ts.map fun es => .object (sourceEntries es) := by
  induction ts with
  | nil => rfl
  | cons es ts ih => rw [sourceTables,ih,List.map_cons]

def Entries.Bounded (es : Entries) : Prop := ∀ e ∈ es, e.2.Bounded

theorem bounded_array {xs : List Toml} : Bounded (.array xs) ↔ ∀ x ∈ xs, x.Bounded := by
  rw [Bounded,source,sourceItems_eq]
  constructor
  · rintro ⟨⟩
    rename_i h
    exact fun x hx => h _ (List.mem_map_of_mem hx)
  · intro h
    exact .array (List.forall_mem_map.mpr h)

theorem bounded_object {es : Entries} :
    (Json.Source.object (sourceEntries es)).Bounded ↔ es.Bounded := by
  rw [sourceEntries_eq]
  constructor
  · rintro ⟨⟩
    rename_i h
    exact fun e he => h _ (List.mem_map_of_mem he)
  · intro h
    exact .object (List.forall_mem_map.mpr h)

theorem bounded_table {origin : Origin} {es : Entries} :
    Bounded (.table origin es) ↔ es.Bounded := bounded_object

theorem bounded_tables {ts : List Entries} : Bounded (.tables ts) ↔ ∀ es ∈ ts, es.Bounded := by
  rw [Bounded,source,sourceTables_eq]
  constructor
  · rintro ⟨⟩
    rename_i h
    exact fun es hes => bounded_object.mp (h _ (by simpa using ⟨es,hes,rfl⟩))
  · intro h
    refine .array fun s hs => ?_
    obtain ⟨es,hes,rfl⟩ : ∃ es ∈ ts, .object (sourceEntries es) = s := by simpa using hs
    exact bounded_object.mpr (h es hes)

namespace Entries

variable {es es' : Entries} {f : Entries → Option Entries} {key : String} {v : Toml}

theorem Bounded.nil : Bounded [] := by simp [Bounded]

theorem Bounded.concat (h : es.Bounded) (hv : v.Bounded) : Bounded (es ++ [(key, v)]) := by
  exact List.forall_mem_append.mpr ⟨h,by simpa using hv⟩

theorem Bounded.replace (h : es.Bounded) (hv : v.Bounded) : (es.replace key v).Bounded := by
  induction es with
  | nil => exact h
  | cons e es ih =>
    obtain ⟨k,w⟩ := e
    obtain ⟨he,hes⟩ := List.forall_mem_cons.mp h
    unfold Entries.replace
    split
    · exact List.forall_mem_cons.mpr ⟨hv,hes⟩
    · exact List.forall_mem_cons.mpr ⟨he,ih hes⟩

theorem Bounded.lookup (h : es.Bounded) (hv : es.lookup key = some v) : v.Bounded := by
  obtain ⟨before,after,rfl,-⟩ := List.lookup_eq_some_iff.mp hv
  exact h (key,v) (by simp)

theorem Bounded.inTable {origin : Origin} {inner : Entries} (h : es.Bounded)
    (hlookup : es.lookup key = some (.table origin inner)) : inner.Bounded :=
  bounded_table.mp (h.lookup hlookup)

theorem Bounded.inTables {last : Entries} {others : List Entries} (h : es.Bounded)
    (hlookup : es.lookup key = some (.tables (last :: others))) :
    last.Bounded ∧ ∀ es ∈ others, es.Bounded :=
  List.forall_mem_cons.mp (bounded_tables.mp (h.lookup hlookup))

theorem Bounded.newTable {origin : Origin} {inner : Entries} (h : es.Bounded)
    (hinner : inner.Bounded) : Bounded (es ++ [(key, .table origin inner)]) :=
  h.concat (bounded_table.mpr hinner)

theorem Bounded.replaceTable {origin : Origin} {inner : Entries} (h : es.Bounded)
    (hinner : inner.Bounded) : (es.replace key (.table origin inner)).Bounded :=
  h.replace (bounded_table.mpr hinner)

theorem Bounded.replaceTables {last : Entries} {others : List Entries} (h : es.Bounded)
    (hlast : last.Bounded) (hothers : ∀ es ∈ others, es.Bounded) :
    (es.replace key (.tables (last :: others))).Bounded :=
  h.replace (bounded_tables.mpr (List.forall_mem_cons.mpr ⟨hlast,hothers⟩))

theorem Bounded.within (hf : ∀ es es', Bounded es → f es = some es' → es'.Bounded)
    {path : List String} (h : es.Bounded) (hwithin : es.within f path = some es') :
    es'.Bounded := by
  induction path generalizing es es' with
  | nil => exact hf _ _ h hwithin
  | cons k path ih =>
    unfold Entries.within at hwithin
    split at hwithin
    · obtain ⟨inner,hinner,hsome⟩ := Option.bind_eq_some_iff.mp hwithin
      obtain rfl := Option.some.inj hsome
      exact h.newTable (ih .nil hinner)
    · obtain ⟨-,hwithin⟩ := Option.ite_none_left_eq_some.mp hwithin
      obtain ⟨inner,hinner,hsome⟩ := Option.bind_eq_some_iff.mp hwithin
      obtain rfl := Option.some.inj hsome
      exact h.replaceTable (ih (h.inTable ‹_›) hinner)
    · obtain ⟨last,hinner,hsome⟩ := Option.bind_eq_some_iff.mp hwithin
      obtain rfl := Option.some.inj hsome
      obtain ⟨hlast,hothers⟩ := h.inTables ‹_›
      exact h.replaceTables (ih hlast hinner) hothers
    · contradiction

theorem Bounded.assign {path : List String} (h : es.Bounded) (hv : v.Bounded)
    (hassign : es.assign v path = some es') : es'.Bounded := by
  fun_induction Entries.assign v path es generalizing es' with
  | case1 | case2 | case6 | case7 | case9 => contradiction
  | case3 =>
    obtain rfl := Option.some.inj hassign
    exact h.concat hv
  | case4 k next path es hlookup ih =>
    obtain ⟨inner,hinner,hsome⟩ := Option.bind_eq_some_iff.mp hassign
    obtain rfl := Option.some.inj hsome
    exact h.newTable (ih .nil hinner)
  | case5 k next path es origin inner hlookup hdotted ih =>
    obtain ⟨inner,hinner,hsome⟩ := Option.bind_eq_some_iff.mp hassign
    obtain rfl := Option.some.inj hsome
    exact h.replaceTable (ih (h.inTable hlookup) hinner)
  | case8 k next path es last others hlookup hpath ih =>
    obtain ⟨last,hinner,hsome⟩ := Option.bind_eq_some_iff.mp hassign
    obtain rfl := Option.some.inj hsome
    obtain ⟨hlast,hothers⟩ := h.inTables hlookup
    exact h.replaceTables (ih hlast hinner) hothers

theorem Bounded.openTable (h : es.Bounded) (hopen : es.openTable key = some es') :
    es'.Bounded := by
  unfold Entries.openTable at hopen
  split at hopen
  · obtain rfl := Option.some.inj hopen
    exact h.newTable .nil
  · obtain rfl := Option.some.inj hopen
    exact h.replaceTable (h.inTable ‹_›)
  · contradiction

theorem Bounded.openTables (h : es.Bounded) (hopen : es.openTables key = some es') :
    es'.Bounded := by
  unfold Entries.openTables at hopen
  split at hopen
  · obtain rfl := Option.some.inj hopen
    exact h.concat (bounded_tables.mpr (by simpa using Bounded.nil))
  · rename_i hlookup
    obtain rfl := Option.some.inj hopen
    exact h.replaceTables .nil (bounded_tables.mp (h.lookup hlookup))
  · contradiction

end Entries

section Values

variable {cs rest : List Char} {t : Toml}

theorem integerWithin?_bounded {n : Int} (h : integerWithin? n = some t) : t.Bounded := by
  obtain ⟨⟨-,hn⟩,hsome⟩ := Option.ite_none_right_eq_some.mp h
  obtain rfl := Option.some.inj hsome
  have hmax : Int64.maxValue.toInt = 9223372036854775807 := rfl
  have hsize : UInt64.size = 18446744073709551616 := rfl
  exact .integer (by omega)

theorem integer?_bounded (h : integer? cs = some t) : t.Bounded := by
  unfold integer? at h
  split at h
  all_goals
    obtain ⟨ds,-,hn⟩ := Option.bind_eq_some_iff.mp h
    exact integerWithin?_bounded hn

theorem float?_eq (h : float? cs = some t) : t = .float := by
  have made {tooLarge : Bool} (h : (if tooLarge then none else some Toml.float) = some t) :
      t = .float := (Option.some.inj (Option.ite_none_left_eq_some.mp h).2).symm
  unfold float? at h
  split at h
  dsimp only at h
  split at h
  · exact (Option.some.inj h).symm
  simp only [Option.bind_eq_bind] at h
  split at h
  all_goals
    obtain ⟨exponent,-,h⟩ := Option.bind_eq_some_iff.mp h
    obtain ⟨whole,-,h⟩ := Option.bind_eq_some_iff.mp h
    split at h
    · split at h
      all_goals
        obtain ⟨fraction,-,h⟩ := Option.bind_eq_some_iff.mp h
        exact made h
    · obtain ⟨fraction,-,h⟩ := Option.bind_eq_some_iff.mp h
      exact made h

theorem scalarOf?_bounded (h : scalarOf? cs = some t) : t.Bounded := by
  unfold scalarOf? at h
  split at h
  · obtain rfl := Option.some.inj h
    exact .bool true
  split at h
  · obtain rfl := Option.some.inj h
    exact .bool false
  split at h
  · obtain rfl := Option.some.inj h
    exact .object (by simpa using .string _)
  · rcases Option.or_eq_some_iff.mp h with h | ⟨-,h⟩
    · exact integer?_bounded h
    · rw [float?_eq h]
      exact .unreadable

theorem scalar?_bounded (h : scalar? cs = some (t, rest)) : t.Bounded := by
  obtain ⟨u,hu,heq⟩ := Option.map_eq_some_iff.mp h
  obtain rfl := (Prod.mk.inj heq).1
  exact scalarOf?_bounded hu

def Moderate (value : Reader Toml) : Prop := ∀ cs v rest, value cs = some (v, rest) → v.Bounded

theorem elements?_bounded {value : Reader Toml} (hvalue : Moderate value) {rounds : Nat}
    {out vs : List Toml} (hout : ∀ v ∈ out, v.Bounded)
    (h : elements? value rounds out cs = some (vs, rest)) : ∀ v ∈ vs, v.Bounded := by
  induction rounds generalizing out cs with
  | zero => contradiction
  | succ rounds ih =>
    obtain ⟨more,-,h⟩ := Option.bind_eq_some_iff.mp h
    split at h
    · obtain ⟨rfl,-⟩ := Prod.mk.inj (Option.some.inj h)
      simpa using hout
    · obtain ⟨⟨v,after⟩,hv,h⟩ := Option.bind_eq_some_iff.mp h
      have hnext : ∀ w ∈ v :: out, w.Bounded := List.forall_mem_cons.mpr ⟨hvalue _ _ _ hv,hout⟩
      obtain ⟨more,-,h⟩ := Option.bind_eq_some_iff.mp h
      split at h
      · exact ih hnext h
      · obtain ⟨rfl,-⟩ := Prod.mk.inj (Option.some.inj h)
        simpa only [List.mem_reverse] using hnext
      · contradiction

theorem pairs?_bounded {value : Reader Toml} (hvalue : Moderate value) {rounds : Nat}
    {es es' : Entries} (hes : es.Bounded) (h : pairs? value rounds es cs = some (es', rest)) :
    es'.Bounded := by
  induction rounds generalizing es cs with
  | zero => contradiction
  | succ rounds ih =>
    obtain ⟨⟨path,after⟩,-,h⟩ := Option.bind_eq_some_iff.mp h
    obtain ⟨more,-,h⟩ := Option.bind_eq_some_iff.mp h
    obtain ⟨⟨v,after⟩,hv,h⟩ := Option.bind_eq_some_iff.mp h
    obtain ⟨assigned,hassign,h⟩ := Option.bind_eq_some_iff.mp h
    have hnext := hes.assign (hvalue _ _ _ hv) hassign
    split at h
    · exact ih hnext h
    · obtain ⟨rfl,-⟩ := Prod.mk.inj (Option.some.inj h)
      exact hnext
    · contradiction

theorem flat_bounded (h : (match cs.head? with
    | some '"' | some '\x27' => (string? cs).map fun (s, rest) => (Toml.string s, rest)
    | _ => scalar? cs) = some (t, rest)) : t.Bounded := by
  have text (h : (string? cs).map (fun (s, rest) => (Toml.string s, rest)) = some (t, rest)) :
      t.Bounded := by
    obtain ⟨s,-,heq⟩ := Option.map_eq_some_iff.mp h
    obtain rfl := (Prod.mk.inj heq).1
    exact .string _
  split at h
  · exact text h
  · exact text h
  · exact scalar?_bounded h

theorem value?_moderate (room : Nat) : Moderate (value? room) := by
  induction room with
  | zero =>
    intro cs v rest h
    unfold value? at h
    split at h
    · contradiction
    · contradiction
    · exact flat_bounded h
  | succ room ih =>
    intro cs v rest h
    unfold value? at h
    split at h
    · obtain ⟨⟨vs,after⟩,hvs,heq⟩ := Option.map_eq_some_iff.mp h
      obtain rfl := (Prod.mk.inj heq).1
      exact bounded_array.mpr (elements?_bounded ih (by simp) hvs)
    · dsimp only at h
      split at h
      · obtain rfl := (Prod.mk.inj (Option.some.inj h)).1
        exact bounded_table.mpr .nil
      · obtain ⟨⟨es,after⟩,hes,heq⟩ := Option.map_eq_some_iff.mp h
        obtain rfl := (Prod.mk.inj heq).1
        exact bounded_table.mpr (pairs?_bounded ih .nil hes)
    · exact flat_bounded h

end Values

section Documents

def Statement.Bounded : Statement → Prop
  | .pair _ v => v.Bounded
  | _ => True

theorem statement?_bounded {cs rest : List Char} {s : Statement}
    (h : statement? cs = some (s, rest)) : s.Bounded := by
  unfold statement? at h
  split at h
  · obtain ⟨⟨path,after⟩,-,h⟩ := Option.bind_eq_some_iff.mp h
    obtain ⟨first,-,h⟩ := Option.bind_eq_some_iff.mp h
    obtain ⟨second,-,h⟩ := Option.bind_eq_some_iff.mp h
    obtain ⟨line,-,h⟩ := Option.bind_eq_some_iff.mp h
    obtain rfl := (Prod.mk.inj (Option.some.inj h)).1
    trivial
  · obtain ⟨⟨path,after⟩,-,h⟩ := Option.bind_eq_some_iff.mp h
    obtain ⟨bracket,-,h⟩ := Option.bind_eq_some_iff.mp h
    obtain ⟨line,-,h⟩ := Option.bind_eq_some_iff.mp h
    obtain rfl := (Prod.mk.inj (Option.some.inj h)).1
    trivial
  · obtain ⟨⟨path,after⟩,-,h⟩ := Option.bind_eq_some_iff.mp h
    obtain ⟨sign,-,h⟩ := Option.bind_eq_some_iff.mp h
    obtain ⟨⟨v,after⟩,hv,h⟩ := Option.bind_eq_some_iff.mp h
    obtain ⟨line,-,h⟩ := Option.bind_eq_some_iff.mp h
    obtain rfl := (Prod.mk.inj (Option.some.inj h)).1
    exact value?_moderate nestingLimit _ _ _ hv

theorem statements?_bounded {cs : List Char} {rounds : Nat} {out ss : List Statement}
    (hout : ∀ s ∈ out, s.Bounded) (h : statements? rounds out cs = some ss) :
    ∀ s ∈ ss, s.Bounded := by
  induction rounds generalizing out cs with
  | zero =>
    obtain rfl := Option.some.inj (Option.ite_none_right_eq_some.mp h).2
    simpa only [List.mem_reverse] using hout
  | succ rounds ih =>
    obtain ⟨more,-,h⟩ := Option.bind_eq_some_iff.mp h
    split at h
    · obtain rfl := Option.some.inj h
      simpa only [List.mem_reverse] using hout
    · obtain ⟨⟨s,after⟩,hs,h⟩ := Option.bind_eq_some_iff.mp h
      exact ih (List.forall_mem_cons.mpr ⟨statement?_bounded hs,hout⟩) h

theorem add?_bounded {a a' : Assembly} {s : Statement} (ha : a.root.Bounded) (hs : s.Bounded)
    (h : a.add? s = some a') : a'.root.Bounded := by
  cases s with
  | pair path v =>
    obtain ⟨root,hroot,h⟩ := Option.bind_eq_some_iff.mp h
    obtain rfl := Option.some.inj h
    exact ha.within (fun es es' hes => hes.assign hs) hroot
  | header path =>
    obtain ⟨root,hroot,h⟩ := Option.bind_eq_some_iff.mp h
    obtain rfl := Option.some.inj h
    exact ha.within (fun es es' hes => hes.openTable) hroot
  | listHeader path =>
    obtain ⟨root,hroot,h⟩ := Option.bind_eq_some_iff.mp h
    obtain rfl := Option.some.inj h
    exact ha.within (fun es es' hes => hes.openTables) hroot

theorem foldlM_bounded {a a' : Assembly} {ss : List Statement} (ha : a.root.Bounded)
    (hss : ∀ s ∈ ss, s.Bounded) (h : ss.foldlM Assembly.add? a = some a') : a'.root.Bounded := by
  induction ss generalizing a with
  | nil =>
    obtain rfl := Option.some.inj h
    exact ha
  | cons s ss ih =>
    obtain ⟨hs,hrest⟩ := List.forall_mem_cons.mp hss
    rw [List.foldlM_cons] at h
    obtain ⟨next,hnext,h⟩ := Option.bind_eq_some_iff.mp h
    exact ih (add?_bounded ha hs hnext) hrest h

/-- Whatever the text, no integer in what is read is beyond the range. -/
theorem parse?_bounded {s : String} {t : Toml} (h : parse? s = some t) : t.Bounded := by
  obtain ⟨ss,hss,h⟩ := Option.bind_eq_some_iff.mp h
  obtain ⟨a,ha,h⟩ := Option.bind_eq_some_iff.mp h
  obtain rfl := Option.some.inj h
  exact bounded_table.mpr (foldlM_bounded .nil (statements?_bounded (by simp) hss) ha)

end Documents

end Toml
end ReasonAct
