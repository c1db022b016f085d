import ReasonAct.Config.Basic
import ReasonAct.Proofs.Toml.Quoted
import ReasonAct.Proofs.Toml.Scalar
set_option autoImplicit false

namespace ReasonAct.Toml

open Config (line heading)

structure Reads (written : List Char) (v : Toml) : Prop where
  starts : ∀ rest, skipGap (written ++ rest) = written ++ rest
  reads : ∀ rest, value? nestingLimit (written ++ '\n' :: rest) = some (v, '\n' :: rest)

structure Bare (name : String) : Prop where
  ne_nil : name.toList ≠ []
  isBare : ∀ c ∈ name.toList, isBare c = true

instance (name : String) : Decidable (Bare name) :=
  decidable_of_iff (name.toList ≠ [] ∧ name.toList.all isBare = true)
    ⟨fun h => ⟨h.1,List.all_eq_true.mp h.2⟩,fun h => ⟨h.ne_nil,List.all_eq_true.mpr h.isBare⟩⟩

section Values

theorem skipGap_cons {c : Char} (hc : isGap c = false) (cs : List Char) :
    skipGap (c :: cs) = c :: cs := by
  simp [skipGap,hc]

theorem value?_string {c : Char} (hc : c = quote ∨ c = tick) (cs : List Char) (room : Nat) :
    value? room (c :: cs) = (string? (c :: cs)).map fun x => (.string x.1, x.2) := by
  rcases hc with rfl | rfl <;> cases room <;> rfl

theorem value?_scalar {c : Char} (hc : c.isDigit = true) (cs : List Char) (room : Nat) :
    value? room (c :: cs) = scalar? (c :: cs) := by
  have hne {d : Char} (hd : d.isDigit = false) : c ≠ d := by
    rintro rfl
    simp [hc] at hd
  rw [value?]
  · split
    · exact absurd (Option.some.inj ‹_›) (hne (by decide))
    · exact absurd (Option.some.inj ‹_›) (hne (by decide))
    · rfl
  · intro cs h
    exact hne (by decide) (List.cons.inj h).1
  · intro cs h
    exact hne (by decide) (List.cons.inj h).1

theorem quoted_cons (s : String) :
    ∃ c more, quoted s = c :: more ∧ (c = quote ∨ c = tick) := by
  simp only [quoted,lines]
  repeat' split
  all_goals exact ⟨_,_,rfl,by simp⟩

theorem reads_quoted (s : String) : Reads (quoted s) (.string s) := by
  obtain ⟨c,more,hquoted,hc⟩ := quoted_cons s
  constructor
  · intro rest
    have hgap : isGap c = false := by rcases hc with rfl | rfl <;> rfl
    rw [hquoted,List.cons_append,skipGap_cons hgap]
  · intro rest
    have hread := string?_quoted rest s
    rw [hquoted,List.cons_append] at hread ⊢
    rw [value?_string hc,hread]
    rfl

theorem reads_natDigits {n : Nat} (hn : 2*n < UInt64.size) :
    Reads (Decimal.natDigits n) (.integer n) := by
  have hread := scalar?_natDigits hn
  cases hd : Decimal.natDigits n with
  | nil => exact absurd hd Nat.toDigits_ne_nil
  | cons d ds =>
    have hdigit : d.isDigit = true := Json.isDigit_natDigits (n := n) (by simp [hd])
    constructor
    · intro rest
      have hgap : isGap d = false := by
        simp only [isGap,Bool.or_eq_false_iff,decide_eq_false_iff_not]
        constructor <;> rintro rfl <;> simp at hdigit
      rw [List.cons_append,skipGap_cons hgap]
    · intro rest
      rw [List.cons_append,value?_scalar hdigit,← List.cons_append,← hd,hread]

end Values

theorem lineEnd?_feed (rest : List Char) : lineEnd? ('\n' :: rest) = some rest := rfl

section Statements

variable {name : String} (hname : Bare name)

include hname

theorem Bare.cons : ∃ c cs, name.toList = c :: cs ∧ Toml.isBare c = true := by
  obtain ⟨c,cs,h⟩ := List.exists_cons_of_ne_nil hname.ne_nil
  exact ⟨c,cs,h,hname.isBare c (by simp [h])⟩

theorem skipGap_bare (rest : List Char) :
    skipGap (name.toList ++ rest) = name.toList ++ rest := by
  obtain ⟨c,cs,h,hc⟩ := hname.cons
  have hgap : isGap c = false := by
    simp only [isGap,Bool.or_eq_false_iff,decide_eq_false_iff_not]
    constructor <;> rintro rfl <;> exact absurd hc (by decide)
  rw [h,List.cons_append,skipGap_cons hgap]

variable {c : Char} (hc : isBare c = false) (rest : List Char)

include hc

theorem key?_bare : key? (name.toList ++ c :: rest) = some (name, c :: rest) := by
  have htake : (name.toList ++ c :: rest).takeWhile isBare = name.toList := by
    rw [List.takeWhile_append_of_pos hname.isBare]
    simp [hc]
  have hdrop : (name.toList ++ c :: rest).dropWhile isBare = c :: rest := by
    rw [List.dropWhile_append_of_pos hname.isBare]
    simp [hc]
  rw [key?,htake,hdrop]
  split
  · exact absurd ‹_› hname.ne_nil
  · rw [String.ofList_toList]

theorem path?_bare (hdot : (skipGap (c :: rest)).head? ≠ some '.') :
    path? (name.toList ++ c :: rest) = some ([name], skipGap (c :: rest)) := by
  have hlength : (name.toList ++ c :: rest).length = name.toList.length+rest.length+1 := by
    simp only [List.length_append,List.length_cons]
    omega
  rw [path?,hlength,keyPath?]
  simp only [skipGap_bare hname,key?_bare hname hc,Option.bind_eq_bind,Option.bind_some]
  split
  · exact absurd (by simp [*]) hdot
  · rfl

omit hc

theorem Bare.ne_bracket (cs : List Char) : name.toList ++ rest ≠ '[' :: cs := by
  obtain ⟨c,more,h,hc⟩ := hname.cons
  rw [h,List.cons_append]
  intro heq
  rw [(List.cons.inj heq).1] at hc
  exact absurd hc (by decide)

theorem statement?_heading :
    statement? (heading name [] ++ rest) = some (.header [name], rest) := by
  have hpath : path? (name.toList ++ ']' :: '\n' :: rest) = some ([name], ']' :: '\n' :: rest) :=
    path?_bare hname (by decide) _ (by simp [skipGap,isGap])
  have htext : heading name [] ++ rest = '[' :: (name.toList ++ ']' :: '\n' :: rest) := by
    simp [heading]
  rw [htext,statement?]
  · simp [hpath,expect?,lineEnd?_feed]
  · exact hname.ne_bracket _

theorem statement?_line {written : List Char} {v : Toml} (hv : Reads written v) :
    statement? (line name written ++ rest) = some (.pair [name] v, rest) := by
  have hpath : path? (name.toList ++ ' ' :: '=' :: ' ' :: (written ++ '\n' :: rest)) =
      some ([name], '=' :: ' ' :: (written ++ '\n' :: rest)) :=
    path?_bare hname (by decide) _ (by simp [skipGap,isGap])
  have hspace : skipGap (' ' :: (written ++ '\n' :: rest)) = written ++ '\n' :: rest := by
    simpa [skipGap,isGap] using hv.starts ('\n' :: rest)
  have htext : line name written ++ rest =
      name.toList ++ ' ' :: '=' :: ' ' :: (written ++ '\n' :: rest) := by
    simp [line]
  rw [htext,statement?]
  · simp [hpath,expect?,hspace,hv.reads,lineEnd?_feed]
  · exact fun cs => hname.ne_bracket _ _
  · exact hname.ne_bracket _

end Statements

/-- A text of lines, one for each statement, with empty lines between them. -/
inductive Lines : List Char → List Statement → Prop
  | nil : Lines [] []
  | blank {cs statements} (h : Lines cs statements) : Lines ('\n' :: cs) statements
  | cons {c cs rest s statements} (hstart : skipLines false (c :: cs) = some (c :: cs))
    (hread : statement? (c :: cs) = some (s, rest)) (hshorter : rest.length ≤ cs.length)
    (h : Lines rest statements) : Lines (c :: cs) (s :: statements)

theorem Lines.statements? {cs : List Char} {ss : List Statement} (h : Lines cs ss) (rounds : Nat)
    (hrounds : cs.length ≤ rounds) (out : List Statement) :
    statements? (rounds+1) out cs = some (out.reverse ++ ss) := by
  induction h generalizing rounds out with
  | nil => simp [Toml.statements?,skipLines]
  | blank h ih =>
    have hskip (cs : List Char) : skipLines false ('\n' :: cs) = skipLines false cs := rfl
    have hind := ih rounds (Nat.le_of_succ_le hrounds) out
    rw [Toml.statements?] at hind ⊢
    rwa [hskip]
  | cons hstart hread hshorter h ih =>
    cases rounds with
    | zero => contradiction
    | succ rounds =>
      have hind := ih rounds (Nat.le_trans hshorter (Nat.le_of_succ_le_succ hrounds))
      rw [Toml.statements?,hstart]
      simp [hread,hind]

section Lines

variable {name : String} {rest written : List Char} {v : Toml} {ss : List Statement}

theorem Lines.heading (hname : Bare name) (h : Lines rest ss) :
    Lines (heading name [] ++ rest) (.header [name] :: ss) := by
  have hread := statement?_heading hname rest
  exact .cons rfl hread (by simp; omega) h

theorem Lines.line (hname : Bare name) (hv : Reads written v) (h : Lines rest ss) :
    Lines (line name written ++ rest) (.pair [name] v :: ss) := by
  have hread := statement?_line hname rest hv
  obtain ⟨c,cs,hcons,hc⟩ := hname.cons
  have htext : Config.line name written ++ rest =
      c :: (cs ++ " = ".toList ++ written ++ ['\n'] ++ rest) := by
    simp [Config.line,hcons]
  have hstart (more : List Char) : skipLines false (c :: more) = some (c :: more) := by
    have hne {d : Char} (hd : isBare d = false) : c ≠ d := by
      rintro rfl
      simp [hc] at hd
    have hgap : isGap c = false := by
      simp [isGap,hne (show isBare ' ' = false by decide),hne (show isBare '\t' = false by decide)]
    simp [skipLines,hgap,hne (show isBare '\n' = false by decide),
      hne (show isBare '\r' = false by decide),hne (show isBare '#' = false by decide)]
  rw [htext] at hread ⊢
  exact .cons (hstart _) hread (by simp; omega) h

def Holds (cs : List Char) (entries : Entries) : Prop :=
  ∀ rest ss, Lines rest ss → Lines (cs ++ rest) (entries.map (fun e => .pair [e.1] e.2) ++ ss)

theorem Holds.nil : Holds [] [] := fun _ _ h => h

theorem Holds.line (hname : Bare name) (hv : Reads written v) :
    Holds (line name written) [(name, v)] := fun _ _ h => h.line hname hv

theorem Holds.append {cs cs' : List Char} {es es' : Entries} (h : Holds cs es)
    (h' : Holds cs' es') : Holds (cs ++ cs') (es ++ es') := by
  intro rest ss hrest
  simpa using h _ _ (h' _ _ hrest)

theorem Lines.inSection {body : List Char} {es : Entries} (hname : Bare name)
    (hbody : Holds body es) (h : Lines rest ss) : Lines (Config.heading name body ++ rest)
      (.header [name] :: (es.map (fun e => .pair [e.1] e.2) ++ ss)) := by
  have htext : Config.heading name body ++ rest = Config.heading name [] ++ (body ++ rest) := by
    simp [Config.heading]
  rw [htext]
  exact (hbody _ _ h).heading hname

end Lines

section Tables

variable {es : Entries} {name : String}

theorem lookup_eq_none (h : name ∉ es.map Prod.fst) : es.lookup name = none := by
  rw [List.lookup_eq_none_iff]
  intro e he
  rw [bne_iff_ne]
  rintro rfl
  exact h (List.mem_map_of_mem he)

theorem replace_last (h : name ∉ es.map Prod.fst) (v w : Toml) :
    Entries.replace name v (es ++ [(name, w)]) = es ++ [(name, v)] := by
  induction es with
  | nil => simp [Entries.replace]
  | cons e es ih =>
    rw [List.map_cons,List.mem_cons,not_or] at h
    simp [Entries.replace,Ne.symm h.1,ih h.2]

theorem add?_pair (hname : name ∉ es.map Prod.fst) {ps : Entries} {key : String}
    (hkey : key ∉ ps.map Prod.fst) (v : Toml) :
    Assembly.add? ⟨es ++ [(name, .table .header ps)], [name]⟩ (.pair [key] v) =
      some ⟨es ++ [(name, .table .header (ps ++ [(key, v)]))], [name]⟩ := by
  have hlookup : (es ++ [(name, Toml.table .header ps)]).lookup name =
      some (.table .header ps) := by
    simp [List.lookup_append,lookup_eq_none hname]
  have hassign : Entries.assign v [key] ps = some (ps ++ [(key, v)]) := by
    simp [Entries.assign,lookup_eq_none hkey]
  simp [Assembly.add?,Entries.within,hlookup,hassign,replace_last hname]

theorem add?_pairs (hname : name ∉ es.map Prod.fst) (pairs ps : Entries)
    (hkeys : ((ps ++ pairs).map Prod.fst).Nodup) :
    (pairs.map fun e => Statement.pair [e.1] e.2).foldlM Assembly.add?
        ⟨es ++ [(name, .table .header ps)], [name]⟩ =
      some ⟨es ++ [(name, .table .header (ps ++ pairs))], [name]⟩ := by
  induction pairs generalizing ps with
  | nil => simp
  | cons e pairs ih =>
    have hassoc : ps ++ e :: pairs = ps ++ [e] ++ pairs := by simp
    have hkey : e.1 ∉ ps.map Prod.fst := by
      rw [List.map_append,List.nodup_append] at hkeys
      exact fun hmem => hkeys.2.2 _ hmem _ List.mem_cons_self rfl
    rw [List.map_cons,List.foldlM_cons,add?_pair hname hkey,hassoc]
    exact ih _ (hassoc ▸ hkeys)

def statementsOf (sections : List (String × Entries)) : List Statement :=
  sections.flatMap fun s => .header [s.1] :: s.2.map fun e => .pair [e.1] e.2

def tablesOf (sections : List (String × Entries)) : Entries :=
  sections.map fun s => (s.1, .table .header s.2)

theorem add?_header (hname : name ∉ es.map Prod.fst) (current : List String) :
    Assembly.add? ⟨es, current⟩ (.header [name]) =
      some ⟨es ++ [(name, .table .header [])], [name]⟩ := by
  simp [Assembly.add?,Entries.within,Entries.openTable,lookup_eq_none hname]

theorem add?_sections (sections : List (String × Entries)) (current : List String)
    (hnames : ((es ++ tablesOf sections).map Prod.fst).Nodup)
    (hkeys : ∀ s ∈ sections, (s.2.map Prod.fst).Nodup) :
    ((statementsOf sections).foldlM Assembly.add? ⟨es, current⟩).map Assembly.root =
      some (es ++ tablesOf sections) := by
  induction sections generalizing es current with
  | nil => simp [statementsOf,tablesOf]
  | cons s sections ih =>
    obtain ⟨hs,hrest⟩ := List.forall_mem_cons.mp hkeys
    have hassoc : es ++ tablesOf (s :: sections) =
        es ++ [(s.1, .table .header s.2)] ++ tablesOf sections := by simp [tablesOf]
    have hname : s.1 ∉ es.map Prod.fst := by
      rw [List.map_append,List.nodup_append] at hnames
      exact fun hmem => hnames.2.2 _ hmem _ List.mem_cons_self rfl
    have hpairs := add?_pairs hname s.2 [] hs
    rw [List.nil_append] at hpairs
    have hcons : statementsOf (s :: sections) =
        .header [s.1] :: ((s.2.map fun e => .pair [e.1] e.2) ++ statementsOf sections) := rfl
    rw [hcons,List.foldlM_cons,add?_header hname]
    simp only [Option.bind_eq_bind,Option.bind_some,List.foldlM_append,hpairs]
    rw [hassoc] at hnames ⊢
    exact ih _ hnames hrest

/-- A document of sections with names and keys of their own is read as their tables. -/
theorem parse?_lines {sections : List (String × Entries)} {c : Char} {cs : List Char}
    (hmark : c.toNat ≠ 0xFEFF) (h : Lines (c :: cs) (statementsOf sections))
    (hnames : (sections.map Prod.fst).Nodup)
    (hkeys : ∀ s ∈ sections, (s.2.map Prod.fst).Nodup) :
    parse? (String.ofList (c :: cs)) = some (.table .header (tablesOf sections)) := by
  have hnames' : (([] ++ tablesOf sections).map Prod.fst).Nodup := by
    simpa [tablesOf,Function.comp_def] using hnames
  have hroot := add?_sections sections [] hnames' hkeys
  obtain ⟨a,ha,hroot⟩ := Option.map_eq_some_iff.mp hroot
  rw [List.nil_append] at hroot
  have hstatements := h.statements? (c :: cs).length (Nat.le_refl _) []
  simp only [parse?,String.toList_ofList,withoutMark,hmark,if_false,hstatements]
  simp [ha,hroot]

end Tables

end ReasonAct.Toml
