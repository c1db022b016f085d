import Mathlib.Data.List.Chain
import ReasonAct.Proofs.Json.Numeral
import ReasonAct.Proofs.Json.Scanning
/-!
How the tokens of a JSON text are spelled, and that the scanner finds the tokens a text is made of.
Two scalars never stand side by side in a text with a value, so where one ends needs no rule.
-/
set_option autoImplicit false

namespace ReasonAct.Json

section grammar

/-- A character after a backslash, and what the two stand for. -/
def escapes : List (Char × Char) :=
  [('"','"'), ('\\','\\'), ('/','/'), ('b','\x08'), ('f','\x0c'), ('n','\n'), ('r','\r'),
    ('t','\t')]

def IsHex (c : Char) (n : Nat) : Prop :=
  n < 16 ∧ (c = Nat.digitChar n ∨ c = (Nat.digitChar n).toUpper)

inductive FourFigures : List Char → Nat → Prop
  | mk {a b c d : Char} {w x y z : Nat} (ha : IsHex a w) (hb : IsHex b x) (hc : IsHex c y)
      (hd : IsHex d z) : FourFigures [a, b, c, d] (((w * 16 + x) * 16 + y) * 16 + z)

def IsHigh (n : Nat) : Prop := 0xD800 ≤ n ∧ n < 0xDC00

def IsLow (n : Nat) : Prop := 0xDC00 ≤ n ∧ n < 0xE000

def paired (high low : Nat) : Char :=
  Char.ofNat (0x10000 + (high - 0xD800) * 0x400 + (low - 0xDC00))

/-- What stands between the quotes of a string, and its characters. -/
inductive Letters : List Char → List Char → Prop
  | nil : Letters [] []
  | plain {c : Char} {cs ds : List Char} (quote : c ≠ '"') (backslash : c ≠ '\\')
      (control : 0x20 ≤ c.toNat) (rest : Letters cs ds) : Letters (c :: cs) (c :: ds)
  | escape {e c : Char} {cs ds : List Char} (known : (e,c) ∈ escapes) (rest : Letters cs ds) :
      Letters ('\\' :: e :: cs) (c :: ds)
  | unit {fs cs ds : List Char} {n : Nat} (figures : FourFigures fs n) (high : ¬ IsHigh n)
      (low : ¬ IsLow n) (rest : Letters cs ds) :
      Letters ('\\' :: 'u' :: (fs ++ cs)) (Char.ofNat n :: ds)
  | pair {fs gs cs ds : List Char} {high low : Nat} (first : FourFigures fs high)
      (isHigh : IsHigh high) (second : FourFigures gs low) (isLow : IsLow low)
      (rest : Letters cs ds) :
      Letters ('\\' :: 'u' :: (fs ++ '\\' :: 'u' :: (gs ++ cs))) (paired high low :: ds)

inductive Spells : List Char → Token → Prop
  | openArray : Spells ['['] .openArray
  | closeArray : Spells [']'] .closeArray
  | openObject : Spells ['\x7b'] .openObject
  | closeObject : Spells ['\x7d'] .closeObject
  | comma : Spells [','] .comma
  | colon : Spells [':'] .colon
  | text {cs ds : List Char} (letters : Letters cs ds) :
      Spells ('"' :: (cs ++ ['"'])) (.text (some (String.ofList ds)))
  | null : Spells ['n', 'u', 'l', 'l'] (.scalar .null)
  | truth : Spells ['t', 'r', 'u', 'e'] (.scalar (.bool true))
  | falsity : Spells ['f', 'a', 'l', 's', 'e'] (.scalar (.bool false))
  | number {cs : List Char} {m : Numeral} {n : Number} (spelling : m.Spelling cs)
      (value : m.number? = some n) : Spells cs (.scalar (.number n))

/-- A text is its tokens with spaces between, before and after them. -/
inductive Lexed : List Char → List Token → Prop
  | nil : Lexed [] []
  | space {c : Char} {cs : List Char} {ts : List Token}
      (blank : c = ' ' ∨ c = '\t' ∨ c = '\n' ∨ c = '\r') (rest : Lexed cs ts) : Lexed (c :: cs) ts
  | token {t : Token} {cs rest : List Char} {ts : List Token} (first : Spells cs t)
      (onward : Lexed rest ts) : Lexed (cs ++ rest) (t :: ts)

end grammar

theorem isSpace_iff {c : Char} :
    isSpace c = true ↔ c = ' ' ∨ c = '\t' ∨ c = '\n' ∨ c = '\r' := by
  simp [isSpace,or_assoc]

theorem escaped?_eq_some_iff {e c : Char} : escaped? e = some c ↔ (e,c) ∈ escapes := by
  have hsome (d : Char) : some d = some c ↔ c = d := by rw [Option.some.injEq,eq_comm]
  unfold escaped?
  split
  case h_9 =>
    simp only [escapes,List.mem_cons,Prod.mk.injEq,List.not_mem_nil,or_false,reduceCtorEq,false_iff]
    rintro (⟨h,-⟩ | ⟨h,-⟩ | ⟨h,-⟩ | ⟨h,-⟩ | ⟨h,-⟩ | ⟨h,-⟩ | ⟨h,-⟩ | ⟨h,-⟩) <;> contradiction
  all_goals simp [escapes,hsome]

theorem hexDigit?_eq_some_iff {c : Char} {n : Nat} : hexDigit? c = some n ↔ IsHex c n := by
  constructor
  · intro h
    have hlow : c.toNat < 103 := by
      unfold hexDigit? at h
      grind
    have hall : ∀ m < 103, ∀ n ∈ hexDigit? (Char.ofNat m), n < 16 ∧
        (Char.ofNat m = Nat.digitChar n ∨ Char.ofNat m = (Nat.digitChar n).toUpper) := by decide
    have hc := hall c.toNat hlow
    rw [Char.ofNat_toNat] at hc
    exact hc n h
  · rintro ⟨hn,rfl | rfl⟩
    · exact hexDigit?_digitChar n hn
    · have hall : ∀ n < 16, hexDigit? (Nat.digitChar n).toUpper = some n := by decide
      exact hall n hn

section completeness

/-! What is spelled by tokens is scanned as them. -/

variable {out : List Token} {rest : List Char}

theorem scanFrom_unit {fs : List Char} {n : Nat} (h : FourFigures fs n) (q : Quoting) :
    scanFrom ('\\' :: 'u' :: (fs ++ rest)) (.quoting q) out =
      scanFrom rest (.quoting (q.unit n)) out := by
  cases h with
  | mk ha hb hc hd =>
    rw [← hexDigit?_eq_some_iff] at ha hb hc hd
    simp [scanFrom,step,ha,hb,hc,hd]

theorem Quoting.unit_char {n : Nat} (q : Quoting) (hhigh : ¬ IsHigh n) (hlow : ¬ IsLow n) :
    q.unit n = q.char (Char.ofNat n) := by
  have hh : (0xD800 ≤ n && n < 0xDC00) = false := by simpa [IsHigh] using hhigh
  have hl : (0xDC00 ≤ n && n < 0xE000) = false := by simpa [IsLow] using hlow
  rw [Quoting.unit,hh,hl]
  rfl

theorem Quoting.unit_high {n : Nat} (q : Quoting) (h : IsHigh n) :
    q.unit n = ⟨q.chars,some n,q.paired && q.half.isNone⟩ := by
  have hh : (0xD800 ≤ n && n < 0xDC00) = true := by simpa [IsHigh] using h
  rw [Quoting.unit,hh,if_pos rfl]

theorem Quoting.unit_low {n : Nat} (cs : List Char) (o : Option Nat) (b : Bool) (h : IsLow n) :
    (Quoting.mk cs o b).unit n = match o with
      | some high => ⟨Json.paired high n :: cs,none,b⟩
      | none => ⟨cs,none,false⟩ := by
  have hh : (0xD800 ≤ n && n < 0xDC00) = false := by
    simp only [Bool.and_eq_false_iff,decide_eq_false_iff_not]
    exact .inr (Nat.not_lt.mpr h.1)
  have hl : (0xDC00 ≤ n && n < 0xE000) = true := by simpa [IsLow] using h
  rw [Quoting.unit,hh,hl]
  rfl

theorem Letters.scanFrom {cs ds : List Char} (h : Letters cs ds) (before : List Char) :
    scanFrom (cs ++ '"' :: rest) (.quoting ⟨before,none,true⟩) out =
      scanFrom rest .between (.text (some (String.ofList (before.reverse ++ ds))) :: out) := by
  induction h generalizing before with
  | nil => exact scanFrom_step rest (by simp [step,Quoting.finish])
  | @plain c cs ds quote backslash control _ ih =>
    have hstep : step c out (.quoting ⟨before,none,true⟩) =
        some (.quoting ⟨c :: before,none,true⟩,out) := by
      simp [step,quote,backslash,Nat.not_lt.mpr control,Quoting.char]
    rw [List.cons_append,scanFrom_step _ hstep]
    simpa using ih (c :: before)
  | @escape e c cs ds known _ ih =>
    have hu : e ≠ 'u' := by rintro rfl; simp [escapes] at known
    rw [List.cons_append,List.cons_append,
      scanFrom_escaped _ out _ hu (escaped?_eq_some_iff.mpr known)]
    simpa [Quoting.char] using ih (c :: before)
  | @unit fs cs ds n figures high low _ ih =>
    simp only [List.cons_append,List.append_assoc]
    rw [scanFrom_unit figures,Quoting.unit_char _ high low]
    simpa [Quoting.char] using ih (Char.ofNat n :: before)
  | @pair fs gs cs ds high low first isHigh second isLow _ ih =>
    simp only [List.cons_append,List.append_assoc]
    rw [scanFrom_unit first,Quoting.unit_high _ isHigh,scanFrom_unit second,
      Quoting.unit_low _ _ _ isLow]
    simpa using ih (Json.paired high low :: before)

def Token.IsScalar : Token → Prop
  | .scalar _ => True
  | _ => False

theorem Spells.scanFrom {cs : List Char} {t : Token} (h : Spells cs t)
    (hrest : t.IsScalar → Delimited rest) :
    scanFrom (cs ++ rest) .between out = scanFrom rest .between (t :: out) := by
  cases h with
  | openArray | closeArray | openObject | closeObject | comma | colon => rfl
  | @text cs ds letters =>
    have hopen := scanFrom_step (cs ++ '"' :: rest)
      (show step '"' out .between = some (.quoting .empty,out) from rfl)
    simpa using hopen.trans (letters.scanFrom [])
  | null => exact scanFrom_null out (hrest trivial)
  | truth => exact scanFrom_bool true out (hrest trivial)
  | falsity => exact scanFrom_bool false out (hrest trivial)
  | number spelling value =>
    simpa [value] using
      scanFrom_numeral (Numeral.ofChars?_eq_some_iff.mpr spelling) out (hrest trivial)

theorem Spells.delimited {cs : List Char} {t : Token} (h : Spells cs t) (ht : ¬ t.IsScalar) :
    Delimited (cs ++ rest) := by
  cases h with
  | openArray | closeArray | openObject | closeObject | comma | colon | text => exact ⟨rfl,rfl⟩
  | null | truth | falsity | number _ _ => exact absurd trivial ht

theorem Lexed.delimited {cs : List Char} {ts : List Token} (h : Lexed cs ts)
    (hts : ∀ t ∈ ts.head?, ¬ t.IsScalar) : Delimited cs := by
  cases h with
  | nil => trivial
  | space blank _ => rcases blank with rfl | rfl | rfl | rfl <;> exact ⟨rfl,rfl⟩
  | token first _ => exact first.delimited (hts _ rfl)

/-- No scalar stands next to another. -/
def Apart (ts : List Token) : Prop := ts.IsChain fun t u => ¬ (t.IsScalar ∧ u.IsScalar)

theorem Lexed.scanFrom {cs : List Char} {ts : List Token} (h : Lexed cs ts) (hapart : Apart ts)
    (out : List Token) : scanFrom cs .between out = some (ts.reverse ++ out) := by
  induction h generalizing out with
  | nil => rfl
  | @space c cs ts blank _ ih =>
    have hstep : step c out .between = some (.between,out) := by
      simp [step,begin?,isSpace_iff.mpr blank]
    rw [scanFrom_step cs hstep]
    exact ih hapart out
  | @token t cs rest ts first onward ih =>
    have hrest (ht : t.IsScalar) : Delimited rest := by
      refine onward.delimited fun u hu hscalar => ?_
      exact (List.isChain_cons.mp hapart).1 u hu ⟨ht,hscalar⟩
    rw [first.scanFrom hrest,ih (List.isChain_cons.mp hapart).2]
    simp

theorem Lexed.tokens?_eq {cs : List Char} {ts : List Token} (h : Lexed cs ts) (hapart : Apart ts) :
    tokens? cs = some ts := by
  simp [tokens?,h.scanFrom hapart]

end completeness

section soundness

/-! What is scanned is spelled by the tokens found, if each of them stands for something. -/

variable {out found : List Token}

/-- One token after another is found, so what is found at the end ends with what is found so far. -/
theorem scanFrom_cons {c : Char} {cs : List Char} {s : Scan}
    (h : scanFrom (c :: cs) s out = some found) :
    ∃ s' out', step c out s = some (s',out') ∧ scanFrom cs s' out' = some found := by
  rw [scanFrom] at h
  split at h
  · exact ⟨_,_,‹_›,h⟩
  · contradiction

inductive Runs : Quoting → List Char → Quoting → Prop
  | nil (q : Quoting) : Runs q [] q
  | plain {q q' : Quoting} {c : Char} {cs : List Char} (quote : c ≠ '"') (backslash : c ≠ '\\')
      (control : 0x20 ≤ c.toNat) (rest : Runs (q.char c) cs q') : Runs q (c :: cs) q'
  | escape {q q' : Quoting} {e c : Char} {cs : List Char} (known : (e,c) ∈ escapes)
      (rest : Runs (q.char c) cs q') : Runs q ('\\' :: e :: cs) q'
  | unit {q q' : Quoting} {fs cs : List Char} {n : Nat} (figures : FourFigures fs n)
      (rest : Runs (q.unit n) cs q') : Runs q ('\\' :: 'u' :: (fs ++ cs)) q'

theorem scanFrom_unit_some {cs : List Char} {q : Quoting} {left value : Nat}
    (h : scanFrom cs (.unit q left value) out = some found) :
    ∃ c rest n, cs = c :: rest ∧ IsHex c n ∧ scanFrom rest
      (if left ≤ 1 then .quoting (q.unit (value * 16 + n)) else .unit q (left - 1) (value * 16 + n))
      out = some found := by
  cases cs with
  | nil => simp [scanFrom,finish?] at h
  | cons c cs =>
    obtain ⟨s,out',hstep,hcs⟩ := scanFrom_cons h
    simp only [step,Option.bind_eq_bind,Option.bind_eq_some_iff] at hstep
    obtain ⟨n,hn,hstep⟩ := hstep
    refine ⟨c,cs,n,rfl,hexDigit?_eq_some_iff.mp hn,?_⟩
    split at hstep
    all_goals
      cases hstep
      simp only [*,if_true,if_false]

theorem scanFrom_four {cs : List Char} {q : Quoting}
    (h : scanFrom cs (.unit q 4 0) out = some found) :
    ∃ fs rest n, cs = fs ++ rest ∧ FourFigures fs n ∧
      scanFrom rest (.quoting (q.unit n)) out = some found := by
  obtain ⟨a,cs,w,rfl,ha,h⟩ := scanFrom_unit_some h
  obtain ⟨b,cs,x,rfl,hb,h⟩ := scanFrom_unit_some h
  obtain ⟨c,cs,y,rfl,hc,h⟩ := scanFrom_unit_some h
  obtain ⟨d,cs,z,rfl,hd,h⟩ := scanFrom_unit_some h
  exact ⟨[a, b, c, d],cs,_,rfl,.mk ha hb hc hd,by simpa using h⟩

theorem scanFrom_escape {cs : List Char} {q : Quoting}
    (h : scanFrom cs (.escape q) out = some found) :
    ∃ piece rest q', cs = piece ++ rest ∧
      (∀ body q'', Runs q' body q'' → Runs q ('\\' :: (piece ++ body)) q'') ∧
      scanFrom rest (.quoting q') out = some found := by
  cases cs with
  | nil => simp [scanFrom,finish?] at h
  | cons e cs =>
    obtain ⟨s,out',hstep,hcs⟩ := scanFrom_cons h
    rw [step] at hstep
    split at hstep
    · subst e
      cases hstep
      obtain ⟨fs,rest,n,rfl,hfigures,hrest⟩ := scanFrom_four hcs
      refine ⟨'u' :: fs,rest,q.unit n,rfl,fun body q'' hbody => ?_,hrest⟩
      exact .unit hfigures hbody
    · obtain ⟨c,hc,hstep⟩ := Option.map_eq_some_iff.mp hstep
      cases hstep
      refine ⟨[e],cs,q.char c,rfl,fun body q'' hbody => ?_,hcs⟩
      exact .escape (escaped?_eq_some_iff.mp hc) hbody

theorem scanFrom_quoting {cs : List Char} {q : Quoting}
    (h : scanFrom cs (.quoting q) out = some found) :
    ∃ body rest q', cs = body ++ '"' :: rest ∧ Runs q body q' ∧
      scanFrom rest .between (q'.finish :: out) = some found := by
  induction hlength : cs.length using Nat.strongRecOn generalizing cs q with
  | _ length ih =>
    subst hlength
    cases cs with
    | nil => simp [scanFrom,finish?] at h
    | cons c cs =>
      obtain ⟨s,out',hstep,hcs⟩ := scanFrom_cons h
      rw [step] at hstep
      split at hstep
      · subst c
        cases hstep
        exact ⟨[],cs,q,rfl,.nil q,hcs⟩
      split at hstep
      · subst c
        cases hstep
        obtain ⟨piece,rest,q₁,rfl,hpiece,hrest⟩ := scanFrom_escape hcs
        have hshort : rest.length < ('\\' :: (piece ++ rest)).length := by
          simp only [List.length_cons,List.length_append]
          omega
        obtain ⟨body,rest,q',rfl,hruns,hrest⟩ := ih rest.length hshort hrest rfl
        exact ⟨'\\' :: (piece ++ body),rest,q',by simp,hpiece body q' hruns,hrest⟩
      split at hstep
      · contradiction
      · cases hstep
        obtain ⟨body,rest,q',rfl,hruns,hrest⟩ := ih cs.length (by simp) hcs rfl
        exact ⟨c :: body,rest,q',rfl,.plain ‹_› ‹_› (Nat.not_lt.mp ‹_›) hruns,hrest⟩

inductive Continues : Option Nat → List Char → List Char → Prop
  | fresh {cs ds : List Char} (letters : Letters cs ds) : Continues none cs ds
  | half {high low : Nat} {gs cs ds : List Char} (second : FourFigures gs low) (isLow : IsLow low)
      (rest : Letters cs ds) :
      Continues (some high) ('\\' :: 'u' :: (gs ++ cs)) (paired high low :: ds)

/-- From here on the text has these characters, and all halves find their others. -/
def Gathers (q : Quoting) (cs chars : List Char) : Prop :=
  q.paired = true ∧ ∃ ds, Continues q.half cs ds ∧ chars = ds.reverse ++ q.chars

section gathers

variable {q : Quoting} {cs ds chars : List Char}

theorem Gathers.fresh (h : q.paired = true ∧ q.half = none) (letters : Letters cs ds)
    (hchars : chars = ds.reverse ++ q.chars) : Gathers q cs chars :=
  ⟨h.1,ds,h.2 ▸ .fresh letters,hchars⟩

theorem Gathers.of_char {c : Char} (h : Gathers (q.char c) cs chars) :
    (q.paired = true ∧ q.half = none) ∧
      ∃ ds, Letters cs ds ∧ chars = (c :: ds).reverse ++ q.chars := by
  obtain ⟨hpaired,ds,hds,hchars⟩ := h
  simp only [Quoting.char,Bool.and_eq_true,Option.isNone_iff_eq_none] at hpaired
  cases hds with
  | fresh letters => exact ⟨hpaired,ds,letters,by simp [hchars,Quoting.char]⟩

theorem Gathers.of_high {n : Nat} (hn : IsHigh n) (h : Gathers (q.unit n) cs chars) :
    (q.paired = true ∧ q.half = none) ∧ ∃ gs low rest ds, cs = '\\' :: 'u' :: (gs ++ rest) ∧
      FourFigures gs low ∧ IsLow low ∧ Letters rest ds ∧
      chars = (Json.paired n low :: ds).reverse ++ q.chars := by
  rw [q.unit_high hn] at h
  obtain ⟨hpaired,ds,hds,hchars⟩ := h
  simp only [Bool.and_eq_true,Option.isNone_iff_eq_none] at hpaired
  cases hds with
  | half second isLow rest => exact ⟨hpaired,_,_,_,_,rfl,second,isLow,rest,hchars⟩

theorem Gathers.of_low {n : Nat} (hn : IsLow n) (h : Gathers (q.unit n) cs chars) :
    q.paired = true ∧ ∃ high ds, q.half = some high ∧ Letters cs ds ∧
      chars = (Json.paired high n :: ds).reverse ++ q.chars := by
  obtain ⟨before,half,paired⟩ := q
  rw [Quoting.unit_low _ _ _ hn] at h
  obtain ⟨hpaired,ds,hds,hchars⟩ := h
  cases half with
  | none => contradiction
  | some high =>
    cases hds with
    | fresh letters => exact ⟨hpaired,high,ds,rfl,letters,by simpa using hchars⟩

end gathers

theorem Runs.gathers {q q' : Quoting} {cs : List Char} (h : Runs q cs q')
    (hpaired : q'.paired = true) (hhalf : q'.half = none) : Gathers q cs q'.chars := by
  induction h with
  | nil q => exact .fresh ⟨hpaired,hhalf⟩ .nil rfl
  | plain quote backslash control _ ih =>
    obtain ⟨hq,ds,letters,hchars⟩ := (ih hpaired hhalf).of_char
    exact .fresh hq (.plain quote backslash control letters) hchars
  | escape known _ ih =>
    obtain ⟨hq,ds,letters,hchars⟩ := (ih hpaired hhalf).of_char
    exact .fresh hq (.escape known letters) hchars
  | @unit q q' fs cs n figures _ ih =>
    replace ih := ih hpaired hhalf
    by_cases hhigh : IsHigh n
    · obtain ⟨hq,gs,low,rest,ds,rfl,second,isLow,letters,hchars⟩ := ih.of_high hhigh
      exact .fresh hq (.pair figures hhigh second isLow letters) hchars
    by_cases hlow : IsLow n
    · obtain ⟨hq,high,ds,hhalf,letters,hchars⟩ := ih.of_low hlow
      refine ⟨hq,_,?_,hchars⟩
      rw [hhalf]
      exact .half figures hlow letters
    · rw [q.unit_char hhigh hlow] at ih
      obtain ⟨hq,ds,letters,hchars⟩ := ih.of_char
      exact .fresh hq (.unit figures hhigh hlow letters) hchars

def Token.Readable : Token → Prop
  | .text none | .scalar .unreadable => False
  | _ => True

theorem Runs.spells {cs : List Char} {q : Quoting} (h : Runs .empty cs q)
    (hread : q.finish.Readable) : Spells ('"' :: (cs ++ ['"'])) q.finish := by
  have hwhole : q.paired = true ∧ q.half = none := by
    unfold Quoting.finish at hread
    split at hread
    · simpa using ‹(q.paired && q.half.isNone) = true›
    · contradiction
  obtain ⟨-,ds,hds,hchars⟩ := h.gathers hwhole.1 hwhole.2
  have hfinish : q.finish = .text (some (String.ofList ds)) := by
    simp [Quoting.finish,hwhole,hchars,Quoting.empty]
  rw [hfinish]
  cases hds with
  | fresh letters => exact .text letters

theorem scanFrom_going {mk : List Char → Scan} {more : Char → Bool}
    {token? : List Char → Option Token}
    (hstep : ∀ c before out, step c out (mk before) = if more c then some (mk (c :: before),out)
      else (token? before.reverse).bind fun t => begin? c (t :: out))
    (hfinish : ∀ before out, finish? out (mk before) = (token? before.reverse).map (· :: out))
    {cs before : List Char} (h : scanFrom cs (mk before) out = some found) :
    ∃ word rest t, cs = word ++ rest ∧ token? (before.reverse ++ word) = some t ∧
      scanFrom rest .between (t :: out) = some found := by
  induction cs generalizing before with
  | nil =>
    rw [scanFrom,hfinish] at h
    obtain ⟨t,ht,rfl⟩ := Option.map_eq_some_iff.mp h
    exact ⟨[],[],t,rfl,by simpa using ht,rfl⟩
  | cons c cs ih =>
    obtain ⟨s,out',hs,hcs⟩ := scanFrom_cons h
    rw [hstep] at hs
    split at hs
    · cases hs
      obtain ⟨word,rest,t,rfl,ht,hrest⟩ := ih hcs
      exact ⟨c :: word,rest,t,rfl,by simpa using ht,hrest⟩
    · obtain ⟨t,ht,hs⟩ := Option.bind_eq_some_iff.mp hs
      refine ⟨[],c :: cs,t,rfl,by simpa using ht,?_⟩
      rw [scanFrom_step cs (show step c (t :: out) .between = some (s,out') from hs)]
      exact hcs

theorem spells_numeral {cs : List Char} {t : Token} (h : numeralToken? cs = some t)
    (hread : t.Readable) : Spells cs t := by
  obtain ⟨m,hm,rfl⟩ := Option.map_eq_some_iff.mp h
  cases hn : m.number? with
  | none => simp [hn,Token.Readable] at hread
  | some n => exact .number (Numeral.ofChars?_eq_some_iff.mp hm) hn

theorem spells_word {cs : List Char} {t : Token} (h : wordToken? cs = some t) : Spells cs t := by
  unfold wordToken? at h
  split at h
  · cases h
    subst cs
    exact .null
  split at h
  · cases h
    subst cs
    exact .truth
  split at h
  · cases h
    subst cs
    exact .falsity
  · contradiction

theorem scanFrom_first {c : Char} {cs : List Char}
    (h : scanFrom (c :: cs) .between out = some found) :
    isSpace c = true ∧ scanFrom cs .between out = some found ∨
      ∃ word rest t, c :: cs = word ++ rest ∧ rest.length ≤ cs.length ∧
        (t.Readable → Spells word t) ∧ scanFrom rest .between (t :: out) = some found := by
  obtain ⟨s,out',hstep,hcs⟩ := scanFrom_cons h
  rw [step] at hstep
  unfold begin? at hstep
  by_cases hspace : isSpace c = true
  · rw [if_pos hspace] at hstep
    cases hstep
    exact .inl ⟨hspace,hcs⟩
  rw [if_neg hspace] at hstep
  refine .inr ?_
  split at hstep
  · cases hstep; exact ⟨_,cs,_,rfl,Nat.le_refl _,fun _ => .openArray,hcs⟩
  · cases hstep; exact ⟨_,cs,_,rfl,Nat.le_refl _,fun _ => .closeArray,hcs⟩
  · cases hstep; exact ⟨_,cs,_,rfl,Nat.le_refl _,fun _ => .openObject,hcs⟩
  · cases hstep; exact ⟨_,cs,_,rfl,Nat.le_refl _,fun _ => .closeObject,hcs⟩
  · cases hstep; exact ⟨_,cs,_,rfl,Nat.le_refl _,fun _ => .comma,hcs⟩
  · cases hstep; exact ⟨_,cs,_,rfl,Nat.le_refl _,fun _ => .colon,hcs⟩
  · cases hstep
    obtain ⟨body,rest,q,rfl,hruns,hrest⟩ := scanFrom_quoting hcs
    have hshort : rest.length ≤ (body ++ '"' :: rest).length := by
      simp only [List.length_cons,List.length_append]
      omega
    exact ⟨'"' :: (body ++ ['"']),rest,q.finish,by simp,hshort,hruns.spells,hrest⟩
  split at hstep
  · cases hstep
    obtain ⟨word,rest,t,rfl,ht,hrest⟩ := scanFrom_going (fun _ _ _ => rfl) (fun _ _ => rfl) hcs
    exact ⟨c :: word,rest,t,rfl,by simp,spells_numeral ht,hrest⟩
  split at hstep
  · cases hstep
    obtain ⟨word,rest,t,rfl,ht,hrest⟩ := scanFrom_going (fun _ _ _ => rfl) (fun _ _ => rfl) hcs
    exact ⟨c :: word,rest,t,rfl,by simp,fun _ => spells_word ht,hrest⟩
  · contradiction

theorem lexed_of_scanFrom {cs : List Char} (h : scanFrom cs .between out = some found) :
    ∃ ts, found = ts.reverse ++ out ∧ (∀ t ∈ ts, t.Readable → ∃ word, Spells word t) ∧
      ((∀ t ∈ ts, t.Readable) → Lexed cs ts) := by
  induction hlength : cs.length using Nat.strongRecOn generalizing cs out with
  | _ length ih =>
    subst hlength
    cases cs with
    | nil =>
      cases h
      exact ⟨[],rfl,by simp,fun _ => .nil⟩
    | cons c cs =>
      rcases scanFrom_first h with ⟨hspace,hcs⟩ | ⟨word,rest,t,hword,hlength,hspells,hrest⟩
      · obtain ⟨ts,hfound,hts,hlexed⟩ := ih cs.length (by simp) hcs rfl
        exact ⟨ts,hfound,hts,fun hread => .space (isSpace_iff.mp hspace) (hlexed hread)⟩
      · obtain ⟨ts,rfl,hts,hlexed⟩ := ih rest.length (Nat.lt_succ_of_le hlength) hrest rfl
        refine ⟨t :: ts,by simp,List.forall_mem_cons.mpr ⟨fun ht => ⟨word,hspells ht⟩,hts⟩,?_⟩
        intro hread
        obtain ⟨ht,hts⟩ := List.forall_mem_cons.mp hread
        rw [hword]
        exact .token (hspells ht) (hlexed hts)

/-- What is scanned is made of the tokens found, if each of them stands for something; and each that
does is spelled somehow. -/
theorem lexed_of_tokens? {cs : List Char} {ts : List Token} (h : tokens? cs = some ts) :
    (∀ t ∈ ts, t.Readable → ∃ word, Spells word t) ∧
      ((∀ t ∈ ts, t.Readable) → Lexed cs ts) := by
  obtain ⟨found,hfound,rfl⟩ := Option.map_eq_some_iff.mp h
  obtain ⟨ts,rfl,hts⟩ := lexed_of_scanFrom hfound
  rwa [List.append_nil,List.reverse_reverse]

end soundness

end ReasonAct.Json
