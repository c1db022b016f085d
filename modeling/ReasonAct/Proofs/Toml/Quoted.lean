import ReasonAct.Toml.Quoted
set_option autoImplicit false

namespace ReasonAct.Toml

section Escapes

variable (several : Bool) (out rest : List Char)

theorem basic_escaped {c d : Char} (hu : c ≠ 'u') (hlong : c ≠ 'U') (h : escaped? c = some d) :
    basic several ('\\' :: c :: rest) .text out = basic several rest .text (d :: out) := by
  have hquote : '\\' ≠ quote := by decide
  simp only [basic,hquote,hu,hlong,h,if_true,if_false]

theorem hexValue?_digit :
    ∀ n < 16, Text.Utf8.hexValue? (Nat.digitChar n).toUpper = some n := by decide

theorem basic_control {c : Char} (h : c.toNat < 0x80) :
    basic several ('\\' :: 'u' :: '0' :: '0' :: (Nat.digitChar (c.toNat/16)).toUpper ::
      (Nat.digitChar (c.toNat%16)).toUpper :: rest) .text out =
      basic several rest .text (c :: out) := by
  have hquote : '\\' ≠ quote := by decide
  have hzero : Text.Utf8.hexValue? '0' = some 0 := rfl
  have hhigh := hexValue?_digit (c.toNat/16) (by omega)
  have hlow := hexValue?_digit (c.toNat%16) (by omega)
  have hvalue : c.toNat/16*16+c.toNat%16 = c.toNat := by omega
  have hchar : charOf? c.toNat = some c := by
    rw [charOf?,if_pos (by omega),Char.ofNat_toNat]
  simp [basic,hquote,hzero,hhigh,hlow,hvalue,hchar]

theorem basic_plain {c : Char} (hquote : c ≠ quote) (hslash : c ≠ '\\') (hfeed : c ≠ '\n')
    (hreturn : c ≠ '\r') (h : isPrintable c = true) :
    basic several (c :: rest) .text out = basic several rest .text (c :: out) := by
  simp only [basic,hquote,hslash,hfeed,hreturn,h,if_true,if_false]

theorem basic_escape (c : Char) : basic several (escape several c ++ rest) .text out =
    basic several rest .text (c :: out) := by
  unfold escape
  repeat' split
  · subst c; exact basic_escaped several out rest (by decide) (by decide) rfl
  · subst c; exact basic_escaped several out rest (by decide) (by decide) rfl
  · subst c several; rfl
  · subst c; exact basic_escaped several out rest (by decide) (by decide) rfl
  · subst c; exact basic_escaped several out rest (by decide) (by decide) rfl
  · subst c; exact basic_escaped several out rest (by decide) (by decide) rfl
  · subst c; exact basic_escaped several out rest (by decide) (by decide) rfl
  · subst c; exact basic_escaped several out rest (by decide) (by decide) rfl
  · refine basic_control several out rest ?_
    have : c.toNat < 0x20 ∨ c.toNat = 0x7F := by simp_all
    omega
  · have hprint : isPrintable c = true := by simp_all [isPrintable]
    exact basic_plain several out rest ‹_› ‹_› ‹_› ‹_› hprint

end Escapes

theorem basic_line (cs out rest : List Char) :
    basic false (cs.flatMap (escape false) ++ quote :: rest) .text out =
      some (cs.reverse ++ out, rest) := by
  induction cs generalizing out with
  | nil => simp [basic]
  | cons c cs ih =>
    rw [List.flatMap_cons,List.append_assoc,basic_escape,ih]
    simp

def overLines : List Char → Nat → List Char
  | [], _ => []
  | c :: cs, run =>
    if c = quote then
      if run < 2 then quote :: overLines cs (run+1) else '\\' :: quote :: overLines cs 0
    else escape true c ++ overLines cs 0

theorem escapeLines_eq (cs : List Char) (run : Nat) (out : List Char) :
    escapeLines cs run out = out.reverse ++ overLines cs run := by
  induction cs generalizing run out with
  | nil => simp [escapeLines,overLines]
  | cons c cs ih =>
    simp only [escapeLines,overLines]
    split
    · split <;> simp [ih]
    · simp [ih]

def closed (d : Char) (rest : List Char) : List Char := d :: d :: d :: '\n' :: rest

section Runs

variable {d : Char} {body cs : List Char} (out rest : List Char)

theorem append_closed_ne (hbody : ∀ more, body ≠ d :: d :: more)
    (hopen : ¬ (body = [] ∨ body = [d])) : ∀ more, body ++ closed d rest ≠ d :: d :: more := by
  intro more h
  rcases body with - | ⟨a,- | ⟨b,body⟩⟩
  · exact hopen (.inl rfl)
  · simp only [List.cons_append,List.cons.injEq] at h
    exact hopen (.inr (by rw [h.1]))
  · simp only [List.cons_append,List.cons.injEq] at h
    exact hbody body (by rw [h.1,h.2.1])

theorem basic_quote (h : ∀ more, cs ≠ quote :: quote :: more) :
    basic true (quote :: cs) .text out = basic true cs .text (quote :: out) := by
  rw [basic,if_pos rfl,if_pos rfl]
  exact h

theorem literal_tick (h : ∀ more, cs ≠ tick :: tick :: more) :
    literal true (tick :: cs) out = literal true cs (tick :: out) := by
  rw [literal,if_pos rfl,if_pos rfl]
  exact h

/-- Up to two quotes in a row are part of the text, at its end as elsewhere. -/
theorem basic_closed (hbody : body = [] ∨ body = [quote]) :
    basic true (quote :: (body ++ closed quote rest)) .text out =
      some (body ++ quote :: out, '\n' :: rest) := by
  rcases hbody with rfl | rfl <;> rfl

theorem literal_closed (hbody : body = [] ∨ body = [tick]) :
    literal true (tick :: (body ++ closed tick rest)) out =
      some (body ++ tick :: out, '\n' :: rest) := by
  rcases hbody with rfl | rfl <;> rfl

end Runs

theorem escape_cons (several : Bool) (c : Char) :
    ∃ a more, escape several c = a :: more ∧ a ≠ quote ∧ a ≠ '\r' ∧ (a = '\n' → c = '\n') := by
  unfold escape
  repeat' split
  all_goals exact ⟨_,_,rfl,by first | decide | simp_all [quote]⟩

theorem overLines_cons (c : Char) (cs : List Char) (run : Nat) :
    ∃ a more, overLines (c :: cs) run = a :: more ∧ a ≠ '\r' ∧ (a = '\n' → c = '\n') ∧
      (a = quote → c = quote ∧ run < 2 ∧ more = overLines cs (run+1)) := by
  rw [overLines]
  split
  · split
    · exact ⟨_,_,rfl,by decide,fun h => absurd h (by decide),fun _ => ⟨‹_›,‹_›,rfl⟩⟩
    · exact ⟨_,_,rfl,by decide,fun h => absurd h (by decide),fun h => absurd h (by decide)⟩
  · obtain ⟨a,more,hescape,hquote,hreturn,hfeed⟩ := escape_cons true c
    exact ⟨a,more ++ overLines cs 0,by rw [hescape]; rfl,hreturn,hfeed,fun h => absurd h hquote⟩

/-- Behind a quote that stands for itself no two others do. -/
theorem overLines_ne (cs : List Char) (run : Nat) :
    ∀ more, overLines cs (run+1) ≠ quote :: quote :: more := by
  intro more h
  rcases cs with - | ⟨a,- | ⟨b,cs⟩⟩
  · cases h
  · obtain ⟨x,xs,hcons,-,-,hquote⟩ := overLines_cons a [] (run+1)
    obtain ⟨rfl,rfl⟩ := List.cons.inj (hcons.symm.trans h)
    cases (hquote rfl).2.2
  · obtain ⟨x,xs,hcons,-,-,hquote⟩ := overLines_cons a (b :: cs) (run+1)
    obtain ⟨rfl,rfl⟩ := List.cons.inj (hcons.symm.trans h)
    obtain ⟨y,ys,hcons',-,-,hquote'⟩ := overLines_cons b cs (run+1+1)
    obtain ⟨rfl,-⟩ := List.cons.inj ((hquote rfl).2.2.trans hcons')
    have hrun := (hquote' rfl).2.1
    omega

theorem overLines_short {cs : List Char} {run : Nat}
    (h : overLines cs run = [] ∨ overLines cs run = [quote]) : overLines cs run = cs := by
  rcases cs with - | ⟨a,cs⟩
  · rfl
  · obtain ⟨x,xs,hcons,-,-,hquote⟩ := overLines_cons a cs run
    rw [hcons] at h
    obtain ⟨rfl,rfl⟩ : x = quote ∧ xs = [] := by simpa using h
    obtain ⟨rfl,-,hnil⟩ := hquote rfl
    rcases cs with - | ⟨b,cs⟩
    · exact hcons
    · obtain ⟨y,ys,hcons',-⟩ := overLines_cons b cs (run+1)
      cases hnil.trans hcons'

theorem basic_overLines (cs : List Char) (run : Nat) (out rest : List Char) :
    basic true (overLines cs run ++ closed quote rest) .text out =
      some (cs.reverse ++ out, '\n' :: rest) := by
  induction cs generalizing run out with
  | nil => cases rest <;> rfl
  | cons c cs ih =>
    rw [overLines]
    split
    · subst c
      split
      · by_cases hend : overLines cs (run+1) = [] ∨ overLines cs (run+1) = [quote]
        · rw [List.cons_append,basic_closed out rest hend]
          have hsame := overLines_short hend
          rw [hsame] at hend ⊢
          rcases hend with rfl | rfl <;> rfl
        · have hne := append_closed_ne rest (overLines_ne cs run) hend
          rw [List.cons_append,basic_quote out hne,ih]
          simp
      · have hquote : escaped? quote = some quote := rfl
        rw [List.cons_append,List.cons_append,
          basic_escaped true out _ (by decide) (by decide) hquote,ih]
        simp
    · rw [List.append_assoc,basic_escape,ih]
      simp

section Literal

variable {cs : List Char}

theorem le_longestRun (d : Char) (cs : List Char) (n : Nat) : n ≤ longestRun d cs n := by
  induction cs generalizing n with
  | nil => exact Nat.le_refl n
  | cons c cs ih =>
    rw [longestRun]
    split
    · exact Nat.le_trans (Nat.le_succ n) (ih (n+1))
    · exact Nat.le_max_left n _

theorem not_mem_of_longestRun {d : Char} {n : Nat} (h : longestRun d cs n = 0) : d ∉ cs := by
  induction cs generalizing n with
  | nil => nofun
  | cons c cs ih =>
    rw [longestRun] at h
    split at h
    · have hle := le_longestRun d cs (n+1)
      omega
    · have hrest : longestRun d cs 0 = 0 := by omega
      simpa [List.mem_cons,Ne.symm ‹c ≠ d›] using ih hrest

theorem longestRun_le_succ (d : Char) (cs : List Char) (n : Nat) :
    longestRun d cs n ≤ longestRun d cs (n+1) := by
  induction cs generalizing n with
  | nil => exact Nat.le_succ n
  | cons c cs ih =>
    rw [longestRun,longestRun]
    split
    · exact ih (n+1)
    · omega

/-- Behind a delimiter no two others follow, where no three stand together. -/
theorem longestRun_ne {d : Char} (h : longestRun d cs 1 ≤ 2) : ∀ more, cs ≠ d :: d :: more := by
  rintro more rfl
  have hle := le_longestRun d more (1+1+1)
  simp only [longestRun,if_true] at h
  omega

def isLiteral (c : Char) : Bool := c = '\n' || isPrintable c

theorem literal_plain {several : Bool} {c : Char} (out : List Char) (htick : c ≠ tick)
    (hfeed : c ≠ '\n') (h : isLiteral c = true) :
    literal several (c :: cs) out = literal several cs (c :: out) := by
  have hprint : isPrintable c = true := by simpa [isLiteral,hfeed] using h
  have hreturn : c ≠ '\r' := by
    rintro rfl
    exact absurd hprint (by decide)
  simp only [literal,htick,hfeed,hreturn,hprint,if_true,if_false]

theorem literal_line (out rest : List Char) (htick : tick ∉ cs) (hfeed : '\n' ∉ cs)
    (h : ∀ c ∈ cs, isLiteral c = true) :
    literal false (cs ++ tick :: rest) out = some (cs.reverse ++ out, rest) := by
  induction cs generalizing out with
  | nil => simp [literal]
  | cons c cs ih =>
    obtain ⟨hc,hcs⟩ := List.forall_mem_cons.mp h
    rw [List.mem_cons,not_or] at htick hfeed
    rw [List.cons_append,literal_plain out (Ne.symm htick.1) (Ne.symm hfeed.1) hc,
      ih _ htick.2 hfeed.2 hcs]
    simp

theorem literal_lines (out rest : List Char) (hrun : longestRun tick cs 0 ≤ 2)
    (h : ∀ c ∈ cs, isLiteral c = true) :
    literal true (cs ++ closed tick rest) out = some (cs.reverse ++ out, '\n' :: rest) := by
  induction cs generalizing out with
  | nil => cases rest <;> rfl
  | cons c cs ih =>
    obtain ⟨hc,hcs⟩ := List.forall_mem_cons.mp h
    rw [longestRun] at hrun
    split at hrun
    · subst c
      by_cases hend : cs = [] ∨ cs = [tick]
      · rw [List.cons_append,literal_closed out rest hend]
        rcases hend with rfl | rfl <;> rfl
      · have hne := append_closed_ne rest (longestRun_ne hrun) hend
        rw [List.cons_append,literal_tick out hne,
          ih _ (Nat.le_trans (longestRun_le_succ tick cs 0) hrun) hcs]
        simp
    · have hrun' : longestRun tick cs 0 ≤ 2 := by omega
      by_cases hfeed : c = '\n'
      · subst c
        rw [List.cons_append,show literal true ('\n' :: (cs ++ closed tick rest)) out =
          literal true (cs ++ closed tick rest) ('\n' :: out) from rfl,ih _ hrun' hcs]
        simp
      · rw [List.cons_append,literal_plain out ‹_› hfeed hc,ih _ hrun' hcs]
        simp

end Literal

section Reading

variable {cs : List Char} (rest : List Char)

theorem string?_quote (h : ∀ more, cs ≠ quote :: quote :: more) :
    string? (quote :: cs) = finish (basic false cs .text []) := by
  unfold quote at h ⊢
  rw [string?]
  exact h

theorem string?_tick (h : ∀ more, cs ≠ tick :: tick :: more) :
    string? (tick :: cs) = finish (literal false cs []) := by
  unfold tick at h ⊢
  rw [string?]
  exact h

theorem afterOpening_eq (hfeed : cs.head? ≠ some '\n') (hreturn : cs.head? ≠ some '\r') :
    afterOpening cs = cs := by
  unfold afterOpening
  split
  · exact absurd rfl hfeed
  · exact absurd rfl hreturn
  · rfl

theorem string?_basic (cs : List Char) :
    string? (quote :: (cs.flatMap (escape false) ++ quote :: '\n' :: rest)) =
      some (String.ofList cs, '\n' :: rest) := by
  rw [string?_quote,basic_line]
  · simp [finish]
  · intro more h
    rcases cs with - | ⟨c,cs⟩
    · cases (List.cons.inj h).2
    · obtain ⟨a,more',hescape,ha,-⟩ := escape_cons false c
      rw [List.flatMap_cons,hescape] at h
      exact ha (List.cons.inj h).1

theorem string?_literal (htick : tick ∉ cs) (hfeed : '\n' ∉ cs)
    (h : ∀ c ∈ cs, isLiteral c = true) :
    string? (tick :: (cs ++ tick :: '\n' :: rest)) = some (String.ofList cs, '\n' :: rest) := by
  rw [string?_tick,literal_line _ _ htick hfeed h]
  · simp [finish]
  · intro more h
    rcases cs with - | ⟨c,cs⟩
    · cases (List.cons.inj h).2
    · simp [(List.cons.inj h).1] at htick

theorem afterOpening_lines {d : Char} {body : List Char} {several : Bool} (hd : d ≠ '\n')
    (hd' : d ≠ '\r') (h : several = false → body.head? ≠ some '\n' ∧ body.head? ≠ some '\r') :
    afterOpening ((if several then ['\n'] else []) ++ body ++ closed d rest) =
      body ++ closed d rest := by
  cases several with
  | true => rfl
  | false =>
    obtain ⟨hfeed,hreturn⟩ := h rfl
    cases body with
    | nil => exact afterOpening_eq (by simp [closed,hd]) (by simp [closed,hd'])
    | cons c body => exact afterOpening_eq (by simpa using hfeed) (by simpa using hreturn)

theorem lines_append (d : Char) (body : List Char) (several : Bool) :
    lines [d,d,d] body several ++ '\n' :: rest =
      d :: d :: d :: ((if several then ['\n'] else []) ++ body ++ closed d rest) := by
  simp [lines,closed]

theorem string?_basicLines (cs : List Char) :
    string? (lines [quote,quote,quote] (escapeLines cs 0 []) (cs.any (· = '\n')) ++
      '\n' :: rest) = some (String.ofList cs, '\n' :: rest) := by
  have hstart : cs.any (· = '\n') = false →
      (overLines cs 0).head? ≠ some '\n' ∧ (overLines cs 0).head? ≠ some '\r' := by
    intro hlines
    cases cs with
    | nil => exact ⟨nofun,nofun⟩
    | cons c cs =>
      obtain ⟨a,more,hcons,hreturn,hfeed,-⟩ := overLines_cons c cs 0
      have hc : c ≠ '\n' := by simp_all
      simpa [hcons,hreturn] using fun ha => hc (hfeed ha)
  rw [lines_append,show escapeLines cs 0 [] = overLines cs 0 from escapeLines_eq cs 0 []]
  change finish (basic true (afterOpening _) .text []) = _
  rw [afterOpening_lines rest (by decide) (by decide) hstart,basic_overLines]
  simp [finish]

theorem string?_literalLines (hrun : longestRun tick cs 0 ≤ 2)
    (h : ∀ c ∈ cs, isLiteral c = true) :
    string? (lines [tick,tick,tick] cs (cs.any (· = '\n')) ++ '\n' :: rest) =
      some (String.ofList cs, '\n' :: rest) := by
  have hstart : cs.any (· = '\n') = false →
      cs.head? ≠ some '\n' ∧ cs.head? ≠ some '\r' := by
    intro hlines
    cases cs with
    | nil => exact ⟨nofun,nofun⟩
    | cons c cs =>
      have hc : c ≠ '\r' := by
        rintro rfl
        exact absurd (h _ List.mem_cons_self) (by decide)
      simp_all
  rw [lines_append]
  change finish (literal true (afterOpening _) []) = _
  rw [afterOpening_lines rest (by decide) (by decide) hstart,literal_lines _ _ hrun h]
  simp [finish]

theorem isLiteral_of_not_needsEscape {c : Char} (h : needsEscape c = false) :
    isLiteral c = true := by
  simp only [needsEscape,Bool.and_eq_false_iff,Bool.or_eq_false_iff,decide_eq_false_iff_not,
    Decidable.not_not,Nat.not_lt] at h
  simp only [isLiteral,isPrintable,Bool.or_eq_true,Bool.and_eq_true,decide_eq_true_iff]
  rcases h with (rfl | rfl) | h
  · exact .inr (.inl rfl)
  · exact .inl rfl
  · exact .inr (.inr h)

theorem string?_quoted (s : String) :
    string? (quoted s ++ '\n' :: rest) = some (s, '\n' :: rest) := by
  obtain ⟨cs,rfl⟩ : ∃ cs, s = String.ofList cs := ⟨s.toList,by simp⟩
  have hliteral (hcontrol : cs.any needsEscape = false) : ∀ c ∈ cs, isLiteral c = true := by
    simp only [List.any_eq_false,Bool.not_eq_true] at hcontrol
    exact fun c hc => isLiteral_of_not_needsEscape (hcontrol c hc)
  simp only [quoted,String.toList_ofList,Bool.and_eq_true,Bool.not_eq_true',decide_eq_true_iff]
  split
  · rw [List.append_assoc]
    exact string?_basic rest cs
  · split
    · obtain ⟨⟨hcontrol,hticks⟩,hlines⟩ := ‹(_ ∧ _) ∧ _›
      have hfeed : '\n' ∉ cs := fun hmem => by simpa using List.any_eq_false.mp hlines _ hmem
      rw [List.append_assoc]
      exact string?_literal rest (not_mem_of_longestRun hticks) hfeed (hliteral hcontrol)
    · split
      · exact string?_basicLines rest cs
      · split
        · obtain ⟨hcontrol,hticks⟩ := ‹_ ∧ _›
          exact string?_literalLines rest hticks (hliteral hcontrol)
        · split
          · exact string?_basicLines rest cs
          · rw [List.append_assoc]
            exact string?_basic rest cs

end Reading

end ReasonAct.Toml
