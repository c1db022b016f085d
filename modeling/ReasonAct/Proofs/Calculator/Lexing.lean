import ReasonAct.Proofs.Calculator.Items
set_option autoImplicit false

namespace ReasonAct.Calculator

section Scan

variable {α : Type} {value : List Char → List Char → α}

def octets (cs : List Char) : Nat := (String.ofList cs).utf8ByteSize

@[simp] theorem octets_nil : octets [] = 0 := rfl

theorem octets_append (xs ys : List Char) : octets (xs ++ ys) = octets xs + octets ys := by
  simp [octets]

theorem octets_cons (c : Char) (cs : List Char) : octets (c :: cs) = c.utf8Size + octets cs := by
  simp [octets,String.ofList_cons]

def EndsRun (rest : List Char) : Prop := rest.head?.any isRun = false

theorem scanFrom_run {cs : List Char} (h : ∀ c ∈ cs, isRun c = true) (rest : List Char)
    (offset : Nat) (run : List Char) (out : List (Token α)) :
    scanFrom value (cs ++ rest) offset run out =
      scanFrom value rest (offset + octets cs) (cs.reverse ++ run) out := by
  induction cs generalizing offset run with
  | nil => rfl
  | cons c cs ih =>
    simp only [List.mem_cons,forall_eq_or_imp] at h
    simp [scanFrom,h.1,ih h.2,octets_cons,Nat.add_assoc]

@[simp] theorem closeRun_nil (out : List (Token α)) : closeRun value [] out = .ok out := rfl

theorem scanFrom_endsRun {rest : List Char} (h : EndsRun rest) (offset : Nat) (run : List Char)
    (out : List (Token α)) : scanFrom value rest offset run out =
      closeRun value run out >>= scanFrom value rest offset [] := by
  cases rest with
  | nil => cases hclose : closeRun value run out <;> simp [scanFrom,hclose,bind,Except.bind]
  | cons c cs =>
    have hc : isRun c = false := by simpa [EndsRun] using h
    cases hclose : closeRun value run out <;> simp [scanFrom,hc,hclose,bind,Except.bind]

theorem scanFrom_whole {cs rest : List Char} (hne : cs ≠ []) (h : ∀ c ∈ cs, isRun c = true)
    (hrest : EndsRun rest) (offset : Nat) (out : List (Token α)) :
    scanFrom value (cs ++ rest) offset [] out =
      match literal? cs with
      | some (whole, fraction) => scanFrom value rest (offset + octets cs) []
          (.number (value whole fraction) :: out)
      | none => .error (.literal (String.ofList cs)) := by
  rw [scanFrom_run h,scanFrom_endsRun hrest,closeRun]
  cases hliteral : literal? cs <;> simp [hne,hliteral,bind,Except.bind]

theorem isRun_char (op : Operator) : isRun op.char = false := by cases op <;> decide

theorem isBlank_char (op : Operator) : Text.isBlank op.char = false := by cases op <;> decide

theorem ofChar?_char (op : Operator) : Operator.ofChar? op.char = some op := by
  cases op <;> decide

theorem scanFrom_sound {x : Item} (hx : x.Sound) {rest : List Char}
    (hrest : x.isRun = true → EndsRun rest) (offset : Nat) (out : List (Token α)) :
    scanFrom value (x.text ++ rest) offset [] out =
      scanFrom value rest (offset + octets x.text) [] ((x.token? value).toList ++ out) := by
  cases x with
  | blank c h =>
    simp [Item.text,Item.token?,scanFrom,isRun_eq_false_of_isBlank h,h,octets_cons]
  | operator op =>
    simp [Item.text,Item.token?,scanFrom,isRun_char,isBlank_char,ofChar?_char,octets_cons]
  | openParen => rfl
  | closeParen => rfl
  | run cs hne h =>
    obtain ⟨whole,fraction,hn⟩ := hx
    simp only [Item.text,Item.token?]
    rw [scanFrom_whole hne h (hrest rfl),(literal?_eq_some_iff h).mpr hn]
    rfl
  | other c h => contradiction

theorem scanFrom_faulty {x : Item} (hx : ¬ x.Sound) {rest : List Char}
    (hrest : x.isRun = true → EndsRun rest) (offset : Nat) (out : List (Token α)) :
    scanFrom value (x.text ++ rest) offset [] out = .error (x.fault offset) := by
  cases x with
  | run cs hne h =>
    have hnone : literal? cs = none := by
      refine Option.eq_none_iff_forall_not_mem.mpr fun parts hn => ?_
      exact hx ⟨parts.1,parts.2,(literal?_eq_some_iff h).mp hn⟩
    simp only [Item.text]
    rw [scanFrom_whole hne h (hrest rfl),hnone]
    rfl
  | other c h =>
    simp only [Known,not_or,Bool.not_eq_true,not_exists] at h
    obtain ⟨hrun,hblank,hop,hopen,hclose⟩ := h
    have hnone : Operator.ofChar? c = none := by
      rw [Operator.ofChar?,List.find?_eq_none]
      exact fun op _ => by simpa using hop op
    simp [Item.text,Item.fault,scanFrom,hrun,hblank,hnone,hopen,hclose]
  | _ => exact absurd trivial hx

theorem endsRun_of_isChain {x : Item} {items : List Item}
    (h : (x :: items).IsChain Item.Apart)
    (hx : x.isRun = true) : EndsRun (items.flatMap Item.text) := by
  cases items with
  | nil => simp [EndsRun]
  | cons y items =>
    have hy : ¬ (y.isRun = true) := fun hy => (List.isChain_cons_cons.mp h).1 ⟨hx,hy⟩
    cases y with
    | run cs hne hcs => exact absurd rfl hy
    | blank c hc => simpa [EndsRun,Item.text] using isRun_eq_false_of_isBlank hc
    | operator op => simpa [EndsRun,Item.text] using isRun_char op
    | openParen | closeParen => simp [EndsRun,Item.text]; decide
    | other c hc =>
      have hrun : ¬ (Calculator.isRun c = true) := fun hrun => hc (.inl hrun)
      simpa [EndsRun,Item.text] using hrun

variable (value) in
theorem scanFrom_items {before after : List Item}
    (hmaximal : (before ++ after).IsChain Item.Apart)
    (hsound : ∀ x ∈ before, x.Sound) (offset : Nat) (out : List (Token α)) :
    scanFrom value ((before ++ after).flatMap Item.text) offset [] out =
      scanFrom value (after.flatMap Item.text) (offset + octets (before.flatMap Item.text)) []
        ((before.filterMap (Item.token? value)).reverse ++ out) := by
  induction before generalizing offset out with
  | nil => rfl
  | cons x before ih =>
    simp only [List.mem_cons,forall_eq_or_imp] at hsound
    rw [List.cons_append] at hmaximal ⊢
    rw [List.flatMap_cons,scanFrom_sound hsound.1 (endsRun_of_isChain hmaximal),
      ih hmaximal.tail hsound.2,List.flatMap_cons,octets_append,Nat.add_assoc]
    cases htoken : x.token? value <;> simp [htoken]

variable (value) in
theorem tokens_of_sound {s : String} {items : List Item} (h : Divided s.toList items)
    (hsound : ∀ x ∈ items, x.Sound) :
    tokens value s = .ok (items.filterMap (Item.token? value)) := by
  have hmaximal : (items ++ []).IsChain Item.Apart := by simpa using h.maximal
  have hscan := scanFrom_items value hmaximal hsound 0 []
  rw [List.append_nil,h.text] at hscan
  simp [tokens,hscan,scanFrom,Except.map]

variable (value) in
theorem tokens_of_faulty {s : String} {before after : List Item} {x : Item}
    (h : Divided s.toList (before ++ x :: after)) (hsound : ∀ y ∈ before, y.Sound)
    (hx : ¬ x.Sound) :
    tokens value s = .error (x.fault (octets (before.flatMap Item.text))) := by
  have hscan := scanFrom_items value h.maximal hsound 0 []
  have htail := h.maximal.right_of_append
  rw [h.text,List.flatMap_cons,scanFrom_faulty hx (endsRun_of_isChain htail)] at hscan
  simp [tokens,hscan,Except.map]

theorem sound_or_faulty (items : List Item) : (∀ x ∈ items, x.Sound) ∨
    ∃ before x after, items = before ++ x :: after ∧ (∀ y ∈ before, y.Sound) ∧ ¬ x.Sound := by
  induction items with
  | nil => simp
  | cons x items ih =>
    by_cases hx : x.Sound
    · rcases ih with hall | ⟨before,y,after,rfl,hsound,hy⟩
      · exact .inl (by simpa [hx] using hall)
      · exact .inr ⟨x :: before,y,after,rfl,by simpa [hx] using hsound,hy⟩
    · exact .inr ⟨[],x,items,rfl,by simp,hx⟩

/-- The tokens of a text are those of its items, if these are sound, and else the first that is not
is told with the number of bytes in front of it. -/
structure Tokenized (value : List Char → List Char → α) (s : String) (items : List Item) :
    Prop where
  accepted : ∀ ts, tokens value s = .ok ts ↔
    (∀ x ∈ items, x.Sound) ∧ ts = items.filterMap (Item.token? value)
  refused : ∀ e, tokens value s = .error e ↔
    ∃ before x after, items = before ++ x :: after ∧ (∀ y ∈ before, y.Sound) ∧ ¬ x.Sound ∧
      e = x.fault (octets (before.flatMap Item.text))

theorem Divided.tokenized {s : String} {items : List Item} (h : Divided s.toList items) :
    Tokenized value s items := by
  rcases sound_or_faulty items with hsound | ⟨before,x,after,rfl,hsound,hx⟩
  · have htokens := tokens_of_sound value h hsound
    refine ⟨fun ts => ?_,fun e => ?_⟩
    · rw [htokens,Except.ok.injEq]
      exact ⟨fun heq => ⟨hsound,heq.symm⟩,fun heq => heq.2.symm⟩
    · simp only [htokens,reduceCtorEq,false_iff]
      rintro ⟨before,x,after,rfl,-,hx,-⟩
      exact hx (hsound x (by simp))
  · have htokens := tokens_of_faulty value h hsound hx
    refine ⟨fun ts => ?_,fun e => ?_⟩
    · simp only [htokens,reduceCtorEq,false_iff]
      rintro ⟨hall,-⟩
      exact hx (hall x (by simp))
    · constructor
      · rintro he
        rw [htokens] at he
        exact ⟨before,x,after,rfl,hsound,hx,(Except.error.inj he).symm⟩
      · rintro ⟨before',x',after',heq,hsound',hx',rfl⟩
        rw [heq] at h
        exact tokens_of_faulty value h hsound' hx'

end Scan

section Spacing

variable {α : Type} {value : List Char → List Char → α} {xs ys ws : List Char}
  {before after : List Item}

def GoesOn (xs ys : List Char) : Prop := xs.getLast?.any isRun = true ∧ ¬ EndsRun ys

theorem getLast?_of_run {x : Item} (hx : x ∈ before.getLast?) (hrun : x.isRun = true) :
    (before.flatMap Item.text).getLast?.any isRun = true := by
  obtain ⟨early,rfl⟩ := List.getLast?_eq_some_iff.mp hx
  cases x with
  | run cs hne hcs =>
    rw [List.flatMap_append,List.flatMap_singleton]
    simp only [Item.text]
    rw [List.getLast?_append_of_ne_nil _ hne,List.getLast?_eq_some_getLast hne,Option.any_some]
    exact hcs _ (List.getLast_mem hne)
  | _ => contradiction

theorem head?_of_run {x : Item} (hx : x ∈ after.head?) (hrun : x.isRun = true) :
    ¬ EndsRun (after.flatMap Item.text) := by
  obtain ⟨late,rfl⟩ := List.head?_eq_some_iff.mp hx
  cases x with
  | run cs hne hcs =>
    cases cs with
    | nil => contradiction
    | cons c cs => simp [EndsRun,Item.text,hcs c (by simp)]
  | _ => contradiction

theorem Divided.append (hx : Divided xs before) (hy : Divided ys after) (h : ¬ GoesOn xs ys) :
    Divided (xs ++ ys) (before ++ after) := by
  obtain ⟨rfl,hmaximal⟩ := hx
  obtain ⟨rfl,hmaximal'⟩ := hy
  refine ⟨List.flatMap_append,List.isChain_append.mpr ⟨hmaximal,hmaximal',?_⟩⟩
  intro x hx y hy hrun
  exact h ⟨getLast?_of_run hx hrun.1,head?_of_run hy hrun.2⟩

variable (value) in
theorem Divided.blank (h : Divided ws before) (hws : ws.all Text.isBlank = true) :
    (∀ x ∈ before, x.Sound) ∧ before.filterMap (Item.token? value) = [] := by
  have hblank : ∀ x ∈ before, ∃ c hc, x = .blank c hc := by
    intro x hx
    have hall : ∀ c ∈ x.text, Text.isBlank c = true := by
      intro c hc
      exact List.all_eq_true.mp hws c (h.text ▸ List.mem_flatMap.mpr ⟨x,hx,hc⟩)
    cases x with
    | blank c hc => exact ⟨c,hc,rfl⟩
    | operator op => simp [Item.text,isBlank_char] at hall
    | openParen | closeParen => simp [Item.text] at hall; contradiction
    | run cs hne hcs =>
      obtain ⟨c,hc⟩ := List.exists_mem_of_ne_nil cs hne
      have hrun := hcs c hc
      rw [isRun_eq_false_of_isBlank (hall c hc)] at hrun
      contradiction
    | other c hc => exact absurd (.inr (.inl (hall c (by simp [Item.text])))) hc
  refine ⟨?_,List.filterMap_eq_nil_iff.mpr ?_⟩
  · intro x hx
    obtain ⟨c,hc,rfl⟩ := hblank x hx
    trivial
  · intro x hx
    obtain ⟨c,hc,rfl⟩ := hblank x hx
    rfl

/-- White space between two texts makes no difference where no run goes on from one to the other. -/
theorem tokens_spaced {xs ws ys : String} (hws : Text.blank ws = true)
    (h : ¬ GoesOn xs.toList ys.toList) (ts : List (Token α)) :
    tokens value (xs ++ ws ++ ys) = .ok ts ↔ tokens value (xs ++ ys) = .ok ts := by
  by_cases hne : ws.toList = []
  · rw [String.toList_eq_nil_iff.mp hne,String.append_empty]
  obtain ⟨before,hx⟩ := exists_divided xs.toList
  obtain ⟨spaces,hs⟩ := exists_divided ws.toList
  obtain ⟨after,hy⟩ := exists_divided ys.toList
  obtain ⟨hsound,hnone⟩ := hs.blank value hws
  have hplain : ∀ c ∈ ws.toList, isRun c = false := fun c hc =>
    isRun_eq_false_of_isBlank (List.all_eq_true.mp hws c hc)
  have hclose : Divided (xs ++ ys).toList (before ++ after) := by
    rw [String.toList_append]
    exact hx.append hy h
  have hwide : Divided (xs ++ ws ++ ys).toList (before ++ spaces ++ after) := by
    rw [String.toList_append,String.toList_append]
    refine (hx.append hs ?_).append hy ?_
    · rintro ⟨-,hstart⟩
      rw [EndsRun,List.head?_eq_some_head hne,Option.any_some] at hstart
      exact hstart (hplain _ (List.head_mem hne))
    · rintro ⟨hend,-⟩
      rw [List.getLast?_append_of_ne_nil _ hne,List.getLast?_eq_some_getLast hne,Option.any_some,
        hplain _ (List.getLast_mem hne)] at hend
      contradiction
  have hall : (∀ x ∈ before ++ spaces ++ after, x.Sound) ↔ ∀ x ∈ before ++ after, x.Sound := by
    simp only [List.forall_mem_append]
    exact ⟨fun h => ⟨h.1.1,h.2⟩,fun h => ⟨⟨h.1,hsound⟩,h.2⟩⟩
  rw [hclose.tokenized.accepted,hwide.tokenized.accepted,hall]
  simp only [List.filterMap_append,hnone,List.append_nil]

end Spacing

section Cut

/-- The text between two offsets in bytes. There is none where an offset lies within a character. -/
def cut? (s : String) (start stop : Nat) : Option String :=
  if h : start ≤ stop ∧ String.Pos.Raw.IsValid s ⟨start⟩ ∧ String.Pos.Raw.IsValid s ⟨stop⟩ then
    some (s.extract ⟨⟨start⟩, h.2.1⟩ ⟨⟨stop⟩, h.2.2⟩)
  else none

theorem cut?_append (a b c : String) :
    cut? (a ++ (b ++ c)) a.utf8ByteSize (a.utf8ByteSize + b.utf8ByteSize) = some b := by
  have hstart : String.Pos.Raw.IsValid (a ++ (b ++ c)) ⟨a.utf8ByteSize⟩ :=
    String.Pos.Raw.isValid_iff_exists_append.mpr ⟨a,b ++ c,rfl,rfl⟩
  have hstop : String.Pos.Raw.IsValid (a ++ (b ++ c)) ⟨a.utf8ByteSize + b.utf8ByteSize⟩ :=
    String.Pos.Raw.isValid_iff_exists_append.mpr ⟨a ++ b,c,String.append_assoc.symm,by
      rw [← String.utf8ByteSize_append]; rfl⟩
  rw [cut?,dif_pos ⟨Nat.le_add_right _ _,hstart,hstop⟩]
  congr 1
  refine String.toByteArray_inj.mp ?_
  rw [String.toByteArray_extract,String.toByteArray_append,String.toByteArray_append]
  exact (ByteArray.extract_append_size_add (i := 0)).trans (ByteArray.extract_append_eq_left rfl)

variable {α : Type} {value : List Char → List Char → α}

/-- The number between two offsets, cut out of the whole text; `none` if it cannot be cut. -/
def closeCut (value : List Char → List Char → α) (s : String) (opened : Option Nat) (stop : Nat)
    (out : List (Token α)) : Option (Except (Fault α) (List (Token α))) :=
  match opened with
  | none => some (.ok out)
  | some start => (cut? s start stop).map fun text => closeRun value text.toList.reverse out

def cutFrom (value : List Char → List Char → α) (s : String) :
    List Char → Nat → Option Nat → List (Token α) → Option (Except (Fault α) (List (Token α)))
  | [], offset, opened, out => closeCut value s opened offset out
  | c :: cs, offset, opened, out =>
    let next := offset + c.utf8Size
    if isRun c then cutFrom value s cs next (opened.or (some offset)) out
    else match closeCut value s opened offset out with
      | none => none
      | some (.error e) => some (.error e)
      | some (.ok out) =>
        if Text.isBlank c then cutFrom value s cs next none out
        else match Operator.ofChar? c with
          | some op => cutFrom value s cs next none (.operator op :: out)
          | none =>
            if c = '(' then cutFrom value s cs next none (.openParen :: out)
            else if c = ')' then cutFrom value s cs next none (.closeParen :: out)
            else some (.error (.character c offset))

def cutTokens (value : List Char → List Char → α) (s : String) :
    Option (Except (Fault α) (List (Token α))) :=
  (cutFrom value s s.toList 0 none []).map fun tokens => tokens.map List.reverse

def openedAt (before run : List Char) : Option Nat :=
  if run.isEmpty then none else some (octets before)

theorem closeCut_eq {before run rest : List Char} {s : String}
    (hs : s.toList = before ++ (run.reverse ++ rest)) (out : List (Token α)) :
    closeCut value s (openedAt before run) (octets (before ++ run.reverse)) out =
      some (closeRun value run out) := by
  cases run with
  | nil => rfl
  | cons c run =>
    have hcut : cut? s (octets before) (octets (before ++ (c :: run).reverse)) =
        some (String.ofList (c :: run).reverse) := by
      rw [octets_append,← String.ofList_toList (s := s),hs,String.ofList_append,
        String.ofList_append]
      exact cut?_append _ _ _
    simp only [closeCut,openedAt,List.isEmpty_cons,Bool.false_eq_true,if_false,hcut,
      Option.map_some,String.toList_ofList,List.reverse_reverse]

theorem cutFrom_eq {s : String} {cs before run : List Char}
    (hs : s.toList = before ++ (run.reverse ++ cs)) (out : List (Token α)) :
    cutFrom value s cs (octets (before ++ run.reverse)) (openedAt before run) out =
      some (scanFrom value cs (octets (before ++ run.reverse)) run out) := by
  induction cs generalizing before run out with
  | nil => exact closeCut_eq hs out
  | cons c cs ih =>
    have hnext : octets (before ++ run.reverse) + c.utf8Size =
        octets (before ++ run.reverse ++ [c]) := by
      simp [octets_append,octets_cons,Nat.add_assoc]
    unfold cutFrom scanFrom
    dsimp only
    rw [hnext]
    split
    · have hopened : (openedAt before run).or (some (octets (before ++ run.reverse))) =
          openedAt before (c :: run) := by cases run <;> simp [openedAt]
      have hsplit : s.toList = before ++ ((c :: run).reverse ++ cs) := by simpa using hs
      have hmore := ih hsplit out
      rw [hopened]
      simpa using hmore
    · rw [closeCut_eq hs]
      cases closeRun value run out with
      | error e => rfl
      | ok out =>
        have hsplit : s.toList =
            before ++ run.reverse ++ [c] ++ (([] : List Char).reverse ++ cs) := by simpa using hs
        have hmore (out : List (Token α)) := ih hsplit out
        simp only [openedAt,List.isEmpty_nil,if_true,List.reverse_nil,List.append_nil] at hmore
        simp only [hmore]
        cases Operator.ofChar? c <;> simp only [apply_ite some]

theorem cutTokens_eq (s : String) : cutTokens value s = some (tokens value s) := by
  have hcut : cutFrom value s s.toList 0 none [] = some (scanFrom value s.toList 0 [] []) :=
    cutFrom_eq (show s.toList = [] ++ (([] : List Char).reverse ++ s.toList) from rfl) []
  rw [cutTokens,hcut]
  rfl

end Cut

/-- A text is read item by item: it has tokens exactly when all its items are sound, and else the
first that is not is told. White space counts only where it keeps two runs apart, and every run is
cut out between two characters of the text. -/
theorem tokens_follow_items {α : Type} (value : List Char → List Char → α) :
    (∀ s : String, ∃ items, Divided s.toList items) ∧
    (∀ (s : String) items, Divided s.toList items → Tokenized value s items) ∧
    (∀ run whole fraction : List Char, (∀ c ∈ run, isRun c = true) →
      (literal? run = some (whole, fraction) ↔ Numeral run whole fraction)) ∧
    (∀ (xs ws ys : String) ts, Text.blank ws = true → ¬ GoesOn xs.toList ys.toList →
      (tokens value (xs ++ ws ++ ys) = .ok ts ↔ tokens value (xs ++ ys) = .ok ts)) ∧
    ∀ s : String, cutTokens value s = some (tokens value s) := by
  refine ⟨fun s => exists_divided _,fun s items h => h.tokenized,?_,?_,cutTokens_eq⟩
  · exact fun run whole fraction hrun => literal?_eq_some_iff hrun
  · exact fun xs ws ys ts hws h => tokens_spaced hws h ts

example : tokens Prod.mk "(1.+.5)\u2003é" = .error (.character 'é' 10) := by rfl

end ReasonAct.Calculator
