import ReasonAct.Json.Token
import ReasonAct.Proofs.Json.Written
set_option autoImplicit false

namespace ReasonAct.Json

namespace Source

mutual

/-- The tokens that a piece of text is made of. -/
def tokens : Source → List Token
  | .unreadable => []
  | .null => [.scalar .null]
  | .bool b => [.scalar (.bool b)]
  | .number n => [.scalar (.number n)]
  | .string s => [.text (some s)]
  | .array [] => [.openArray, .closeArray]
  | .array (x :: xs) => .openArray :: (x.tokens ++ tokensItems xs)
  | .object [] => [.openObject, .closeObject]
  | .object ((k, x) :: xs) =>
    .openObject :: .text (some k) :: .colon :: (x.tokens ++ tokensFields xs)

def tokensItems : List Source → List Token
  | [] => [.closeArray]
  | x :: xs => .comma :: (x.tokens ++ tokensItems xs)

def tokensFields : List (String × Source) → List Token
  | [] => [.closeObject]
  | (k, x) :: xs => .comma :: .text (some k) :: .colon :: (x.tokens ++ tokensFields xs)

end

end Source

def Delimited : List Char → Prop
  | [] => True
  | c :: _ => isNumeral c = false ∧ c.isAlpha = false

theorem scanFrom_step {c : Char} {s s' : Scan} {out out' : List Token} (cs : List Char)
    (h : step c out s = some (s',out')) : scanFrom (c :: cs) s out = scanFrom cs s' out' := by
  simp [scanFrom,h]

section strings

variable (q : Quoting) (out : List Token) (rest : List Char)

theorem scanFrom_escaped {c d : Char} (hu : c ≠ 'u') (h : escaped? c = some d) :
    scanFrom ('\\' :: c :: rest) (.quoting q) out = scanFrom rest (.quoting (q.char d)) out := by
  have hescape : step '\\' out (.quoting q) = some (.escape q,out) := by simp [step]
  rw [scanFrom_step (c :: rest) hescape]
  exact scanFrom_step rest (by simp [step,hu,h])

theorem hexDigit?_digitChar : ∀ n < 16, hexDigit? (Nat.digitChar n) = some n := by decide

theorem scanFrom_control {c : Char} (h : c.toNat < 0x20) :
    scanFrom ('\\' :: 'u' :: '0' :: '0' :: Nat.digitChar (c.toNat/16) ::
      Nat.digitChar (c.toNat%16) :: rest) (.quoting q) out =
      scanFrom rest (.quoting (q.char c)) out := by
  have hhigh := hexDigit?_digitChar (c.toNat/16) (by omega)
  have hlow := hexDigit?_digitChar (c.toNat%16) (by omega)
  have hzero : hexDigit? '0' = some 0 := rfl
  have hvalue : c.toNat/16*16+c.toNat%16 = c.toNat := by omega
  have hunit : q.unit c.toNat = q.char c := by
    have hlow : (0xD800 ≤ c.toNat && c.toNat < 0xDC00) = false := by simp; omega
    have htrail : (0xDC00 ≤ c.toNat && c.toNat < 0xE000) = false := by simp; omega
    rw [Quoting.unit,hlow,htrail,Char.ofNat_toNat]
    rfl
  simp [scanFrom,step,hhigh,hlow,hzero,hvalue,hunit]

theorem scanFrom_quotedChar (c : Char) :
    scanFrom (Source.quotedChar c ++ rest) (.quoting q) out =
      scanFrom rest (.quoting (q.char c)) out := by
  unfold Source.quotedChar
  repeat' split
  · subst c; exact scanFrom_escaped q out rest (by decide) rfl
  · subst c; exact scanFrom_escaped q out rest (by decide) rfl
  · subst c; exact scanFrom_escaped q out rest (by decide) rfl
  · subst c; exact scanFrom_escaped q out rest (by decide) rfl
  · subst c; exact scanFrom_escaped q out rest (by decide) rfl
  · subst c; exact scanFrom_escaped q out rest (by decide) rfl
  · subst c; exact scanFrom_escaped q out rest (by decide) rfl
  · exact scanFrom_control q out rest ‹_›
  · exact scanFrom_step rest (by simp_all [step])

end strings

theorem scanFrom_quotedChars (cs done : List Char) (out : List Token) (rest : List Char) :
    scanFrom (cs.flatMap Source.quotedChar ++ '"' :: rest) (.quoting ⟨done,none,true⟩) out =
      scanFrom rest .between (.text (some (String.ofList (done.reverse ++ cs))) :: out) := by
  induction cs generalizing done with
  | nil => exact scanFrom_step rest (by simp [step,Quoting.finish])
  | cons c cs ih =>
    rw [List.flatMap_cons,List.append_assoc,scanFrom_quotedChar]
    simpa [Quoting.char] using ih (c :: done)

theorem scanFrom_quoted (s : String) (out : List Token) (rest : List Char) :
    scanFrom (Source.quoted s ++ rest) .between out =
      scanFrom rest .between (.text (some s) :: out) := by
  have hopen := scanFrom_step (s.toList.flatMap Source.quotedChar ++ '"' :: rest)
    (show step '"' out .between = some (.quoting .empty,out) from rfl)
  simpa [Source.quoted] using hopen.trans (scanFrom_quotedChars s.toList [] out rest)

theorem isNumeral_of_isDigit {c : Char} (h : c.isDigit = true) : isNumeral c = true := by
  simp [isNumeral,h]

theorem isNumeral_of_figures {cs rest : List Char} (hrest : (figures cs).2 = rest)
    (h : ∀ c ∈ rest, isNumeral c = true) : ∀ c ∈ cs, isNumeral c = true := by
  intro c hc
  rw [← List.takeWhile_append_dropWhile (p := Char.isDigit) (l := cs),List.mem_append] at hc
  rcases hc with hc | hc
  · exact isNumeral_of_isDigit (List.mem_takeWhile_imp hc)
  · exact h c (hrest ▸ hc)

theorem isNumeral_of_exponent? {cs : List Char} {e : Int} (h : exponent? cs = some e) :
    ∀ c ∈ cs, isNumeral c = true := by
  unfold exponent? at h
  split at h
  rename_i negative unsigned hsign
  have hunsigned : ∀ c ∈ unsigned, isNumeral c = true := by
    have hnil : (figures unsigned).2 = [] := by
      cases hrest : (figures unsigned).2 with
      | nil => rfl
      | cons c rest => simp [hrest] at h
    exact isNumeral_of_figures hnil (by simp)
  split at hsign <;> cases hsign
  · simpa [isNumeral] using hunsigned
  · simpa [isNumeral] using hunsigned
  · exact hunsigned

theorem Numeral.isNumeral_of_tail? {negative : Bool} {whole cs : List Char} {m : Numeral}
    (h : tail? negative whole cs = some m) : ∀ c ∈ cs, isNumeral c = true := by
  have hexponent {e : Char} {rest : List Char} {f : Int → Numeral}
      (h : (if e = 'e' ∨ e = 'E' then (exponent? rest).map f else none) = some m) :
      ∀ c ∈ e :: rest, isNumeral c = true := by
    obtain ⟨he,h⟩ := Option.ite_none_right_eq_some.mp h
    obtain ⟨x,hx,_⟩ := Option.map_eq_some_iff.mp h
    have hmark : isNumeral e = true := by rcases he with rfl | rfl <;> rfl
    simpa [hmark] using isNumeral_of_exponent? hx
  unfold tail? at h
  split at h
  · simp
  · rename_i rest
    dsimp only at h
    obtain ⟨_,h⟩ := Option.ite_none_left_eq_some.mp h
    have hrest : ∀ c ∈ rest, isNumeral c = true := by
      split at h
      · exact isNumeral_of_figures ‹_› (by simp)
      · exact isNumeral_of_figures ‹_› (hexponent h)
    simpa [isNumeral] using hrest
  · exact hexponent h

def leads (c : Char) : Bool := c.isDigit || c = '-'

theorem Numeral.isNumeral_of_ofChars? {cs : List Char} {m : Numeral} (h : ofChars? cs = some m) :
    ∃ c rest, cs = c :: rest ∧ leads c = true ∧ ∀ d ∈ rest, isNumeral d = true := by
  unfold ofChars? at h
  split at h
  rename_i negative unsigned hsign
  dsimp only at h
  have hfigure : ∃ d ds, unsigned = d :: ds ∧ d.isDigit = true := by
    cases unsigned with
    | nil => simp [figures] at h
    | cons d ds =>
      cases hd : d.isDigit with
      | true => exact ⟨d,ds,rfl,hd⟩
      | false => simp [figures,hd] at h
  have htail : ∀ d ∈ unsigned, isNumeral d = true := by
    split at h
    · contradiction
    · contradiction
    · exact isNumeral_of_figures rfl (isNumeral_of_tail? h)
  split at hsign <;> cases hsign
  · exact ⟨'-',unsigned,rfl,rfl,htail⟩
  · obtain ⟨d,ds,rfl,hd⟩ := hfigure
    exact ⟨d,ds,rfl,by simp [leads,hd],fun e he => htail e (by simp [he])⟩

theorem begin?_numeral {c : Char} (h : leads c = true) (out : List Token) :
    begin? c out = some (.numeral [c],out) := by
  have hspace : isSpace c = false := by
    simp only [isSpace,Bool.or_eq_false_iff,decide_eq_false_iff_not]
    refine ⟨⟨⟨?_,?_⟩,?_⟩,?_⟩ <;> rintro rfl <;> exact absurd h (by decide)
  unfold begin?
  rw [hspace,if_neg Bool.false_ne_true]
  split
  case h_8 => exact if_pos h
  all_goals exact absurd h (by decide)

theorem scanFrom_figures {cs : List Char} (h : ∀ c ∈ cs, isNumeral c = true)
    (before : List Char) (out : List Token) (rest : List Char) :
    scanFrom (cs ++ rest) (.numeral before) out =
      scanFrom rest (.numeral (cs.reverse ++ before)) out := by
  induction cs generalizing before with
  | nil => rfl
  | cons c cs ih =>
    have hfigure : step c out (.numeral before) = some (.numeral (c :: before),out) := by
      simp [step,h c]
    rw [List.cons_append,scanFrom_step (cs ++ rest) hfigure,ih fun d hd => h d (by simp [hd])]
    simp

theorem scanFrom_numeral_end {cs : List Char} {t : Token} (h : numeralToken? cs.reverse = some t)
    (out : List Token) {rest : List Char} (hrest : Delimited rest) :
    scanFrom rest (.numeral cs) out = scanFrom rest .between (t :: out) := by
  cases rest with
  | nil => simp [scanFrom,finish?,h]
  | cons c rest => simp [scanFrom,step,hrest.1,h]

theorem scanFrom_word_end (cs : List Char) {t : Token} (h : wordToken? cs.reverse = some t)
    (out : List Token) {rest : List Char} (hrest : Delimited rest) :
    scanFrom rest (.word cs) out = scanFrom rest .between (t :: out) := by
  cases rest with
  | nil => simp [scanFrom,finish?,h]
  | cons c rest => simp [scanFrom,step,hrest.2,h]

theorem scanFrom_numeral {cs : List Char} {m : Numeral} (h : Numeral.ofChars? cs = some m)
    (out : List Token) {rest : List Char} (hrest : Delimited rest) :
    scanFrom (cs ++ rest) .between out =
      scanFrom rest .between (.scalar ((m.number?.map .number).getD .unreadable) :: out) := by
  obtain ⟨c,cs,rfl,hc,hfigures⟩ := Numeral.isNumeral_of_ofChars? h
  have htoken : numeralToken? (cs.reverse ++ [c]).reverse =
      some (.scalar ((m.number?.map .number).getD .unreadable)) := by simp [numeralToken?,h]
  have hfirst : step c out .between = some (.numeral [c],out) := begin?_numeral hc out
  rw [List.cons_append,scanFrom_step (cs ++ rest) hfirst,scanFrom_figures hfigures]
  exact scanFrom_numeral_end htoken out hrest

theorem scanFrom_number {n : Number} (h : n.Exact) (out : List Token) {rest : List Char}
    (hrest : Delimited rest) :
    scanFrom (n.chars ++ rest) .between out =
      scanFrom rest .between (.scalar (.number n) :: out) := by
  obtain ⟨m,hm,hn⟩ := h
  simpa [hn] using scanFrom_numeral hm out hrest

theorem scanFrom_null (out : List Token) {rest : List Char} (hrest : Delimited rest) :
    scanFrom ('n' :: 'u' :: 'l' :: 'l' :: rest) .between out =
      scanFrom rest .between (.scalar .null :: out) :=
  scanFrom_word_end ['l','l','u','n'] rfl out hrest

theorem scanFrom_bool (b : Bool) (out : List Token) {rest : List Char} (hrest : Delimited rest) :
    scanFrom ((Source.bool b).chars ++ rest) .between out =
      scanFrom rest .between (.scalar (.bool b) :: out) := by
  cases b with
  | true => exact scanFrom_word_end ['e','u','r','t'] rfl out hrest
  | false => exact scanFrom_word_end ['e','s','l','a','f'] rfl out hrest

namespace Source

theorem delimited_charsItems (xs : List Source) (rest : List Char) :
    Delimited (charsItems xs ++ rest) := by
  cases xs <;> exact ⟨rfl,rfl⟩

theorem delimited_charsFields (fs : List (String × Source)) (rest : List Char) :
    Delimited (charsFields fs ++ rest) := by
  cases fs <;> exact ⟨rfl,rfl⟩

/-- The scanner reads the piece as its tokens, whatever follows. -/
def Scans (s : Source) : Prop := ∀ (out : List Token) {rest : List Char}, Delimited rest →
  scanFrom (s.chars ++ rest) .between out = scanFrom rest .between (s.tokens.reverse ++ out)

theorem scanFrom_items {xs : List Source} (h : ∀ x ∈ xs, x.Scans) (out : List Token)
    (rest : List Char) :
    scanFrom (charsItems xs ++ rest) .between out =
      scanFrom rest .between ((tokensItems xs).reverse ++ out) := by
  induction xs generalizing out with
  | nil => rfl
  | cons x xs ih =>
    have hx := h x (by simp) (.comma :: out) (delimited_charsItems xs rest)
    have hxs := ih (fun y hy => h y (by simp [hy])) (x.tokens.reverse ++ .comma :: out)
    have hcomma := scanFrom_step (x.chars ++ (charsItems xs ++ rest))
      (show step ',' out .between = some (.between,.comma :: out) from rfl)
    simpa [charsItems,tokensItems] using hcomma.trans (hx.trans hxs)

theorem scanFrom_key (k : String) (out : List Token) (rest : List Char) :
    scanFrom (quoted k ++ ':' :: rest) .between out =
      scanFrom rest .between (.colon :: .text (some k) :: out) :=
  (scanFrom_quoted k out (':' :: rest)).trans (scanFrom_step rest rfl)

theorem scanFrom_fields {fs : List (String × Source)} (h : ∀ f ∈ fs, f.2.Scans)
    (out : List Token) (rest : List Char) :
    scanFrom (charsFields fs ++ rest) .between out =
      scanFrom rest .between ((tokensFields fs).reverse ++ out) := by
  induction fs generalizing out with
  | nil => rfl
  | cons f fs ih =>
    obtain ⟨k,x⟩ := f
    have hx := h (k,x) (by simp) (.colon :: .text (some k) :: .comma :: out)
      (delimited_charsFields fs rest)
    have hfs := ih (fun g hg => h g (by simp [hg]))
      (x.tokens.reverse ++ .colon :: .text (some k) :: .comma :: out)
    have hkey := scanFrom_key k (.comma :: out) (x.chars ++ (charsFields fs ++ rest))
    have hcomma := scanFrom_step (quoted k ++ ':' :: (x.chars ++ (charsFields fs ++ rest)))
      (show step ',' out .between = some (.between,.comma :: out) from rfl)
    simpa [charsFields,tokensFields] using hcomma.trans (hkey.trans (hx.trans hfs))

theorem Within.scans {n : Nat} {s : Source} (h : Within n s) : s.Scans := by
  intro out rest hrest
  induction h generalizing out rest with
  | null => exact scanFrom_null out hrest
  | bool _ b => exact scanFrom_bool b out hrest
  | number _ exact => exact scanFrom_number exact out hrest
  | string _ s => exact scanFrom_quoted s out rest
  | @array n xs _ ih =>
    cases xs with
    | nil => rfl
    | cons x xs =>
      have hopen := scanFrom_step (x.chars ++ (charsItems xs ++ rest))
        (show step '[' out .between = some (.between,.openArray :: out) from rfl)
      have hx := ih x (by simp) (.openArray :: out) (delimited_charsItems xs rest)
      have hxs := scanFrom_items (List.forall_mem_cons.mp ih).2
        (x.tokens.reverse ++ .openArray :: out) rest
      simpa [chars,tokens] using hopen.trans (hx.trans hxs)
  | @object n fs _ ih =>
    cases fs with
    | nil => rfl
    | cons f fs =>
      obtain ⟨k,x⟩ := f
      have hopen := scanFrom_step (quoted k ++ ':' :: (x.chars ++ (charsFields fs ++ rest)))
        (show step '\x7b' out .between = some (.between,.openObject :: out) from rfl)
      have hkey := scanFrom_key k (.openObject :: out) (x.chars ++ (charsFields fs ++ rest))
      have hx := ih (k,x) (by simp) (.colon :: .text (some k) :: .openObject :: out)
        (delimited_charsFields fs rest)
      have hfs := scanFrom_fields (List.forall_mem_cons.mp ih).2
        (x.tokens.reverse ++ .colon :: .text (some k) :: .openObject :: out) rest
      simpa [chars,tokens] using hopen.trans (hkey.trans (hx.trans hfs))

theorem Within.tokens?_chars {n : Nat} {s : Source} (h : Within n s) :
    tokens? s.chars = some s.tokens := by
  have hscan := h.scans [] (show Delimited [] from trivial)
  simp only [List.append_nil] at hscan
  simp [tokens?,hscan,scanFrom,finish?]

end Source
end ReasonAct.Json
