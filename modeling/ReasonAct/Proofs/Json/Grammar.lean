import ReasonAct.Proofs.Json.Lexing
import ReasonAct.Proofs.Json.Reading
/-!
What the automaton accepts. The stack and what is awaited determine the tokens that have been read,
so a piece that is read whole has been read from its own tokens; and what is closed too deeply is
unreadable, so a piece that has a value nests no deeper than the limit.
-/
set_option autoImplicit false

namespace ReasonAct.Json

open Source

section tokens

/-! The tokens of an array or an object are those of its parts with commas between. -/

def fieldTokens (f : String × Source) : List Token := .text (some f.1) :: .colon :: f.2.tokens

def followed (parts : List (List Token)) : List Token := parts.flatMap (· ++ [.comma])

/-- The tokens of the parts with commas between. -/
def separated (parts : List (List Token)) : List Token := [Token.comma].intercalate parts

theorem separated_concat (parts : List (List Token)) (part : List Token) :
    separated (parts ++ [part]) = followed parts ++ part := by
  induction parts with
  | nil => simp [separated,followed]
  | cons p parts ih =>
    have hne : parts ++ [part] ≠ [] := by simp
    rw [separated,List.cons_append,List.intercalate_cons_of_ne_nil hne]
    simp only [separated] at ih
    simp [ih,followed]

theorem tokens_array (xs : List Source) : (Source.array xs).tokens =
    .openArray :: (separated (xs.map Source.tokens) ++ [.closeArray]) := by
  have hitems (xs : List Source) (x : Source) : x.tokens ++ tokensItems xs =
      separated ((x :: xs).map Source.tokens) ++ [.closeArray] := by
    induction xs generalizing x with
    | nil => simp [separated,tokensItems]
    | cons y xs ih =>
      simp only [separated,List.map_cons] at ih ⊢
      rw [List.intercalate_cons_cons,tokensItems,ih]
      simp
  cases xs with
  | nil => simp [Source.tokens,separated]
  | cons x xs => rw [Source.tokens,hitems]

theorem tokens_object (fs : List (String × Source)) : (Source.object fs).tokens =
    .openObject :: (separated (fs.map fieldTokens) ++ [.closeObject]) := by
  have hfields (fs : List (String × Source)) (f : String × Source) :
      fieldTokens f ++ tokensFields fs = separated ((f :: fs).map fieldTokens) ++ [.closeObject] := by
    induction fs generalizing f with
    | nil => simp [separated,tokensFields]
    | cons g fs ih =>
      have hrest : tokensFields (g :: fs) = .comma :: (fieldTokens g ++ tokensFields fs) := rfl
      simp only [separated,List.map_cons] at ih ⊢
      rw [List.intercalate_cons_cons,hrest,ih]
      simp
  cases fs with
  | nil => simp [Source.tokens,separated]
  | cons f fs =>
    rw [← hfields]
    rfl

end tokens

section reading

def Frame.opened : Frame → List Token
  | .array items => .openArray :: followed (items.reverse.map Source.tokens)
  | .object fields _ _ => .openObject :: followed (fields.reverse.map fieldTokens)

def Frame.held : Frame → List Token
  | .array items => .openArray :: separated (items.reverse.map Source.tokens)
  | .object fields _ _ => .openObject :: separated (fields.reverse.map fieldTokens)

def Frame.led : Frame → List Token
  | .array items => (Frame.array items).opened
  | .object fields key sound => (Frame.object fields key sound).opened ++ [.text (some key), .colon]

def ledAll : List Frame → List Token
  | [] => []
  | f :: outer => ledAll outer ++ f.led

def Frame.NonEmpty : Frame → Prop
  | .array items => items ≠ []
  | .object fields _ _ => fields ≠ []

/-- The states that can be reached, with the tokens read on the way. -/
inductive Reached : State → List Token → Prop
  | value (stack : List Frame) : Reached (.awaiting .value stack) (ledAll stack)
  | item (outer : List Frame) :
      Reached (.awaiting .valueOrClose (.array [] :: outer)) (ledAll (.array [] :: outer))
  | firstKey (key : String) (sound : Bool) (outer : List Frame) :
      Reached (.awaiting .keyOrClose (.object [] key sound :: outer))
        (ledAll outer ++ (Frame.object [] key sound).opened)
  | key (fields : List (String × Source)) (key : String) (sound : Bool) (outer : List Frame) :
      Reached (.awaiting .key (.object fields key sound :: outer))
        (ledAll outer ++ (Frame.object fields key sound).opened)
  | colon (fields : List (String × Source)) (key : String) (sound : Bool) (outer : List Frame) :
      Reached (.awaiting .colon (.object fields key sound :: outer))
        (ledAll outer ++ ((Frame.object fields key sound).opened ++ [.text (some key)]))
  | comma {f : Frame} (outer : List Frame) (h : f.NonEmpty) :
      Reached (.awaiting .commaOrClose (f :: outer)) (ledAll outer ++ f.held)
  | done (v : Source) : Reached (.done v) v.tokens

theorem Frame.held_put (f : Frame) (v : Source) : (f.put v).held = f.led ++ v.tokens := by
  cases f <;> simp [Frame.put,held,led,opened,separated_concat,fieldTokens]

theorem Frame.nonEmpty_put (f : Frame) (v : Source) : (f.put v).NonEmpty := by
  cases f <;> simp [Frame.put,NonEmpty]

theorem reached_put (v : Source) (stack : List Frame) :
    Reached (put v stack) (ledAll stack ++ v.tokens) := by
  cases stack with
  | nil => exact .done v
  | cons f outer =>
    rw [ledAll,List.append_assoc,← f.held_put v]
    exact .comma outer (f.nonEmpty_put v)

theorem separated_comma {parts : List (List Token)} (h : parts ≠ []) :
    separated parts ++ [.comma] = followed parts := by
  obtain ⟨before,part,rfl⟩ := List.eq_nil_or_concat parts |>.resolve_left h
  rw [List.concat_eq_append,separated_concat]
  simp [followed]

theorem Frame.held_comma {f : Frame} (h : f.NonEmpty) : f.held ++ [.comma] = f.opened := by
  cases f with
  | array items =>
    have hne : items.reverse.map Source.tokens ≠ [] := by simpa [NonEmpty] using h
    simpa [held,opened] using separated_comma hne
  | object fields key sound =>
    have hne : fields.reverse.map fieldTokens ≠ [] := by simpa [NonEmpty] using h
    simpa [held,opened] using separated_comma hne

end reading

section advance

/-- What one token can do. -/
inductive Advances : Token → Expect → List Frame → State → Prop
  | openArray {e : Expect} (stack : List Frame) (he : e = .value ∨ e = .valueOrClose) :
      Advances .openArray e stack (.awaiting .valueOrClose (.array [] :: stack))
  | openObject {e : Expect} (stack : List Frame) (he : e = .value ∨ e = .valueOrClose) :
      Advances .openObject e stack (.awaiting .keyOrClose (.object [] "" true :: stack))
  | text {e : Expect} (s : Option String) (stack : List Frame)
      (he : e = .value ∨ e = .valueOrClose) :
      Advances (.text s) e stack (put ((s.map .string).getD .unreadable) stack)
  | scalar {e : Expect} (v : Source) (stack : List Frame) (he : e = .value ∨ e = .valueOrClose) :
      Advances (.scalar v) e stack (put v stack)
  | key {e : Expect} (s : Option String) (f : Frame) (outer : List Frame)
      (he : e = .key ∨ e = .keyOrClose) :
      Advances (.text s) e (f :: outer) (.awaiting .colon (f.rekey s :: outer))
  | colon (stack : List Frame) : Advances .colon .colon stack (.awaiting .value stack)
  | nextItem (items : List Source) (outer : List Frame) :
      Advances .comma .commaOrClose (.array items :: outer) (.awaiting .value (.array items :: outer))
  | nextKey (fields : List (String × Source)) (key : String) (sound : Bool) (outer : List Frame) :
      Advances .comma .commaOrClose (.object fields key sound :: outer)
        (.awaiting .key (.object fields key sound :: outer))
  | closeArray {e : Expect} (items : List Source) (outer : List Frame)
      (he : e = .valueOrClose ∨ e = .keyOrClose ∨ e = .commaOrClose) :
      Advances .closeArray e (.array items :: outer) (close (.array items) outer)
  | closeObject {e : Expect} (fields : List (String × Source)) (key : String) (sound : Bool)
      (outer : List Frame) (he : e = .valueOrClose ∨ e = .keyOrClose ∨ e = .commaOrClose) :
      Advances .closeObject e (.object fields key sound :: outer)
        (close (.object fields key sound) outer)

variable {t : Token} {e : Expect} {stack : List Frame} {st : State}

theorem advances_of_beginValue (he : e = .value ∨ e = .valueOrClose)
    (h : beginValue t stack = some st) : Advances t e stack st := by
  cases t <;> cases h
  · exact .openArray stack he
  · exact .openObject stack he
  · exact .text _ stack he
  · exact .scalar _ stack he

theorem advances_of_beginKey (he : e = .key ∨ e = .keyOrClose) (h : beginKey t stack = some st) :
    Advances t e stack st := by
  unfold beginKey at h
  split at h
  · cases h
    exact .key _ _ _ he
  · contradiction

theorem advances_of_closing (he : e = .valueOrClose ∨ e = .keyOrClose ∨ e = .commaOrClose)
    (h : closing t stack = some st) : Advances t e stack st := by
  unfold closing at h
  split at h
  · cases h
    exact .closeArray _ _ he
  · cases h
    exact .closeObject _ _ _ _ he
  · contradiction

theorem advances_of_advance (h : advance t e stack = some st) : Advances t e stack st := by
  cases e with
  | value => exact advances_of_beginValue (.inl rfl) h
  | valueOrClose =>
    rcases Option.or_eq_some_iff.mp h with h | ⟨-,h⟩
    · exact advances_of_closing (.inl rfl) h
    · exact advances_of_beginValue (.inr rfl) h
  | keyOrClose =>
    rcases Option.or_eq_some_iff.mp h with h | ⟨-,h⟩
    · exact advances_of_closing (.inr (.inl rfl)) h
    · exact advances_of_beginKey (.inr rfl) h
  | key => exact advances_of_beginKey (.inl rfl) h
  | colon =>
    cases t <;> cases h
    exact .colon stack
  | commaOrClose =>
    simp only [advance] at h
    split at h
    · cases h
      exact .nextItem _ _
    · cases h
      exact .nextKey _ _ _ _
    · exact advances_of_closing (.inr (.inr rfl)) h

end advance

section readable

/-! What has no value leaves no value behind. -/

def Frame.Readable : Frame → Prop
  | .array items => ∀ x ∈ items, x.Readable
  | .object fields _ sound => sound = true ∧ ∀ f ∈ fields, f.2.Readable

def State.Readable : State → Prop
  | .awaiting _ stack => ∀ f ∈ stack, f.Readable
  | .done v => v.Readable

theorem not_readable_unreadable : ¬ Source.Readable .unreadable := by simp [Source.Readable,value?]

theorem Frame.readable_put {f : Frame} {v : Source} :
    (f.put v).Readable ↔ v.Readable ∧ f.Readable := by
  cases f with
  | array items => exact List.forall_mem_cons
  | object fields key sound =>
    simp only [Frame.put,Frame.Readable,List.forall_mem_cons]
    exact and_left_comm

theorem readable_put {v : Source} {stack : List Frame} :
    (put v stack).Readable ↔ v.Readable ∧ ∀ f ∈ stack, f.Readable := by
  cases stack with
  | nil => simp [put,State.Readable]
  | cons f outer =>
    simp only [put,State.Readable,List.forall_mem_cons,Frame.readable_put]
    exact and_assoc

theorem Frame.readable_close {f : Frame} : f.close.Readable ↔ f.Readable := by
  cases f with
  | array items => simp [Frame.close,Frame.Readable]
  | object fields key sound =>
    cases sound <;> simp [Frame.close,Frame.Readable,not_readable_unreadable]

/-- What is closed with a value did not stand too deep, and all in it has a value. -/
theorem readable_close {f : Frame} {outer : List Frame} (h : (close f outer).Readable) :
    outer.length < nestingLimit ∧ f.Readable ∧ (∀ g ∈ outer, g.Readable) ∧
      close f outer = put f.close outer := by
  unfold close at h ⊢
  obtain ⟨hv,houter⟩ := readable_put.mp h
  split at hv
  · rename_i hdeep
    have hlength : outer.length ≤ nestingLimit - 1 := by simpa using hdeep
    rw [if_pos hdeep]
    exact ⟨by simp only [nestingLimit] at hlength ⊢; omega,Frame.readable_close.mp hv,houter,rfl⟩
  · exact absurd hv not_readable_unreadable

theorem Frame.readable_of_rekey {f : Frame} {s : Option String} (h : (f.rekey s).Readable) :
    f.Readable := by
  cases f with
  | array items => exact h
  | object fields key sound =>
    simp only [Frame.rekey,Frame.Readable,Bool.and_eq_true] at h
    exact ⟨h.1.1,h.2⟩

theorem Advances.readable {t : Token} {e : Expect} {stack : List Frame} {st : State}
    (h : Advances t e stack st) (hst : st.Readable) : ∀ f ∈ stack, f.Readable := by
  cases h with
  | openArray | openObject => exact (List.forall_mem_cons.mp hst).2
  | text | scalar => exact (readable_put.mp hst).2
  | key s f outer he =>
    obtain ⟨hf,houter⟩ := List.forall_mem_cons.mp hst
    exact List.forall_mem_cons.mpr ⟨Frame.readable_of_rekey hf,houter⟩
  | colon | nextItem | nextKey => exact hst
  | closeArray | closeObject =>
    obtain ⟨-,hf,houter,-⟩ := readable_close hst
    exact List.forall_mem_cons.mpr ⟨hf,houter⟩

theorem readable_of_build {ts : List Token} {st : State} {v : Source} (h : build ts st = some v)
    (hv : v.Readable) : st.Readable := by
  induction ts generalizing st with
  | nil =>
    cases st with
    | done w => exact Option.some.inj h ▸ hv
    | awaiting e stack => contradiction
  | cons t ts ih =>
    cases st with
    | done w => contradiction
    | awaiting e stack =>
      obtain ⟨st,hst,hbuild⟩ := Option.bind_eq_some_iff.mp h
      exact (advances_of_advance hst).readable (ih hbuild)

end readable

section reads

/-! What is read with a value is read from its own tokens, and does not nest too deeply. -/

def Frame.Fits (n : Nat) : Frame → Prop
  | .array items => ∀ x ∈ items, x.Nested n
  | .object fields _ _ => ∀ f ∈ fields, f.2.Nested n

/-- What a frame holds may nest as deep as the frames around it leave room. -/
def FitsAll : List Frame → Prop
  | [] => True
  | f :: outer => f.Fits (nestingLimit - (outer.length + 1)) ∧ FitsAll outer

def State.Fits : State → Prop
  | .awaiting _ stack => FitsAll stack
  | .done v => v.Nested nestingLimit

theorem fits_put {v : Source} {stack : List Frame} (hv : v.Nested (nestingLimit - stack.length))
    (hstack : FitsAll stack) : (put v stack).Fits := by
  cases stack with
  | nil => exact hv
  | cons f outer =>
    refine ⟨?_,hstack.2⟩
    have hf := hstack.1
    cases f <;> exact List.forall_mem_cons.mpr ⟨hv,hf⟩

theorem Frame.nested_close {n : Nat} {f : Frame} (h : f.Fits n) (hf : f.Readable) :
    f.close.Nested (n + 1) := by
  cases f with
  | array items => exact .array (by simpa [Frame.Fits] using h)
  | object fields key sound =>
    obtain rfl := hf.1
    exact .object (by simpa [Frame.Fits] using h)

theorem reached_close {f : Frame} {outer : List Frame} {t : Token}
    (ht : f.close.tokens = f.held ++ [t]) (hfits : FitsAll (f :: outer))
    (hread : (close f outer).Readable) :
    Reached (close f outer) (ledAll outer ++ f.held ++ [t]) ∧ (close f outer).Fits := by
  obtain ⟨hdeep,hf,-,hclose⟩ := readable_close hread
  have hlevels : nestingLimit - (outer.length + 1) + 1 = nestingLimit - outer.length := by omega
  rw [hclose,List.append_assoc,← ht]
  exact ⟨reached_put f.close outer,fits_put (hlevels ▸ f.nested_close hfits.1 hf) hfits.2⟩

theorem Frame.held_closeArray (items : List Source) : (Frame.array items).close.tokens =
    (Frame.array items).held ++ [.closeArray] := by
  simp [Frame.close,held,tokens_array]

theorem Frame.held_closeObject (fields : List (String × Source)) (key : String) :
    (Frame.object fields key true).close.tokens =
      (Frame.object fields key true).held ++ [.closeObject] := by
  simp [Frame.close,held,tokens_object]

variable {t : Token} {e : Expect} {stack : List Frame} {st : State} {ts : List Token}

theorem Reached.led (h : Reached (.awaiting e stack) ts) (he : e = .value ∨ e = .valueOrClose) :
    ts = ledAll stack := by
  rcases he with rfl | rfl <;> cases h <;> rfl

theorem Reached.held {f : Frame} {outer : List Frame} (h : Reached (.awaiting e (f :: outer)) ts)
    (he : e = .valueOrClose ∨ e = .keyOrClose ∨ e = .commaOrClose) :
    ts = ledAll outer ++ f.held := by
  rcases he with rfl | rfl | rfl <;> cases h <;> rfl

theorem Reached.opened {f : Frame} {outer : List Frame} (h : Reached (.awaiting e (f :: outer)) ts)
    (he : e = .key ∨ e = .keyOrClose) :
    ts = ledAll outer ++ f.opened ∧ ∃ fields key sound, f = .object fields key sound := by
  rcases he with rfl | rfl <;> cases h <;> exact ⟨rfl,_,_,_,rfl⟩

theorem Advances.reached (h : Advances t e stack st) (hr : Reached (.awaiting e stack) ts)
    (hfits : FitsAll stack) (hread : st.Readable) (ht : t.Readable → ∃ word, Spells word t) :
    Reached st (ts ++ [t]) ∧ st.Fits := by
  cases h with
  | openArray _ he =>
    rw [hr.led he]
    exact ⟨.item stack,⟨by simp [Frame.Fits],hfits⟩⟩
  | openObject _ he =>
    rw [hr.led he]
    exact ⟨.firstKey "" true stack,⟨by simp [Frame.Fits],hfits⟩⟩
  | text s _ he =>
    rw [hr.led he]
    cases s with
    | none => exact absurd (readable_put.mp hread).1 not_readable_unreadable
    | some s => exact ⟨reached_put (.string s) stack,fits_put (.string _ s) hfits⟩
  | scalar v _ he =>
    rw [hr.led he]
    have hv : Token.Readable (.scalar v) := by
      cases v with
      | unreadable => exact absurd (readable_put.mp hread).1 not_readable_unreadable
      | _ => trivial
    obtain ⟨word,hword⟩ := ht hv
    cases hword with
    | null => exact ⟨reached_put .null stack,fits_put (.null _) hfits⟩
    | truth => exact ⟨reached_put (.bool true) stack,fits_put (.bool _ true) hfits⟩
    | falsity => exact ⟨reached_put (.bool false) stack,fits_put (.bool _ false) hfits⟩
    | @number _ _ n _ value =>
      exact ⟨reached_put (.number n) stack,
        fits_put (.number _ (Numeral.number?_inRange value)) hfits⟩
  | key s f outer he =>
    obtain ⟨rfl,fields,key,sound,rfl⟩ := hr.opened he
    have hs := (List.forall_mem_cons.mp hread).1
    cases s with
    | none => simp [Frame.rekey,Frame.Readable] at hs
    | some s =>
      rw [List.append_assoc]
      exact ⟨.colon fields s (sound && true) outer,hfits⟩
  | colon =>
    cases hr with
    | colon fields key sound outer =>
      have hled : ledAll (.object fields key sound :: outer) = ledAll outer ++
          ((Frame.object fields key sound).opened ++ [.text (some key)]) ++ [.colon] := by
        simp [ledAll,Frame.led]
      rw [← hled]
      exact ⟨.value _,hfits⟩
  | nextItem items outer =>
    cases hr with
    | comma _ hne =>
      rw [List.append_assoc,Frame.held_comma hne]
      exact ⟨.value (.array items :: outer),hfits⟩
  | nextKey fields key sound outer =>
    cases hr with
    | comma _ hne =>
      rw [List.append_assoc,Frame.held_comma hne]
      exact ⟨.key fields key sound outer,hfits⟩
  | closeArray items outer he =>
    rw [hr.held he]
    exact reached_close (Frame.held_closeArray items) hfits hread
  | closeObject fields key sound outer he =>
    rw [hr.held he]
    obtain rfl : sound = true := (readable_close hread).2.1.1
    exact reached_close (Frame.held_closeObject fields key) hfits hread

theorem tokens_of_build {read : List Token} {v : Source} (h : build ts st = some v)
    (hr : Reached st read) (hfits : st.Fits) (hv : v.Readable)
    (hts : ∀ t ∈ ts, t.Readable → ∃ word, Spells word t) :
    read ++ ts = v.tokens ∧ v.Nested nestingLimit := by
  induction ts generalizing st read with
  | nil =>
    cases st with
    | done w =>
      obtain rfl := Option.some.inj h
      cases hr
      exact ⟨List.append_nil _,hfits⟩
    | awaiting e stack => contradiction
  | cons t ts ih =>
    cases st with
    | done w => contradiction
    | awaiting e stack =>
      obtain ⟨st,hst,hbuild⟩ := Option.bind_eq_some_iff.mp h
      obtain ⟨ht,hts⟩ := List.forall_mem_cons.mp hts
      obtain ⟨hr,hfits⟩ := (advances_of_advance hst).reached hr hfits (readable_of_build hbuild hv) ht
      simpa using ih hbuild hr hfits hts

end reads

section whole

/-! A piece is read whole from the texts that are made of its tokens. -/

theorem Apart.cons {t : Token} {ts : List Token} (ht : ¬ t.IsScalar) (h : Apart ts) :
    Apart (t :: ts) := List.isChain_cons.mpr ⟨fun _ _ hboth => ht hboth.1,h⟩

theorem Apart.append {ts us : List Token} (hts : Apart ts) (hus : Apart us)
    (h : ∀ u ∈ us.head?, ¬ u.IsScalar) : Apart (ts ++ us) :=
  List.isChain_append.mpr ⟨hts,hus,fun _ _ u hu hboth => h u hu hboth.2⟩

theorem apart_separated {parts : List (List Token)} (h : ∀ p ∈ parts, Apart p) {t : Token}
    (ht : ¬ t.IsScalar) : Apart (separated parts ++ [t]) := by
  induction parts with
  | nil => exact List.isChain_singleton t
  | cons p parts ih =>
    obtain ⟨hp,hparts⟩ := List.forall_mem_cons.mp h
    cases parts with
    | nil => simpa [separated] using hp.append (List.isChain_singleton t) (by simpa using ht)
    | cons q parts =>
      rw [separated,List.intercalate_cons_cons,List.append_assoc,List.append_assoc]
      exact hp.append (.cons id (ih hparts)) (by simp [Token.IsScalar])

theorem apart_tokens (s : Source) : Apart s.tokens := by
  induction s using Source.induct with
  | unreadable => exact List.IsChain.nil
  | null | bool _ | number _ | string _ => exact List.isChain_singleton _
  | array xs ih =>
    rw [tokens_array]
    exact .cons id (apart_separated (by simpa using ih) id)
  | object fs ih =>
    rw [tokens_object]
    refine .cons id (apart_separated ?_ id)
    intro p hp
    obtain ⟨f,hf,rfl⟩ := List.mem_map.mp hp
    exact .cons id (.cons id (ih f hf))

theorem readable_separated {parts : List (List Token)} (h : ∀ p ∈ parts, ∀ t ∈ p, t.Readable) :
    ∀ t ∈ separated parts, t.Readable := by
  induction parts with
  | nil => simp [separated]
  | cons p parts ih =>
    obtain ⟨hp,hparts⟩ := List.forall_mem_cons.mp h
    cases parts with
    | nil => simpa [separated] using hp
    | cons q parts =>
      rw [separated,List.intercalate_cons_cons,List.append_assoc]
      exact List.forall_mem_append.mpr
        ⟨hp,List.forall_mem_cons.mpr ⟨trivial,ih hparts⟩⟩

/-- All of the tokens of a piece with a value stand for something. -/
theorem Source.Nested.readable_tokens {n : Nat} {s : Source} (h : s.Nested n) :
    ∀ t ∈ s.tokens, t.Readable := by
  induction h with
  | null | bool _ _ | number _ _ | string _ _ => exact List.forall_mem_singleton.mpr trivial
  | array _ ih =>
    rw [tokens_array]
    refine List.forall_mem_cons.mpr ⟨trivial,List.forall_mem_append.mpr
      ⟨readable_separated ?_,List.forall_mem_singleton.mpr trivial⟩⟩
    simpa using ih
  | object _ ih =>
    rw [tokens_object]
    refine List.forall_mem_cons.mpr ⟨trivial,List.forall_mem_append.mpr
      ⟨readable_separated ?_,List.forall_mem_singleton.mpr trivial⟩⟩
    intro p hp
    obtain ⟨f,hf,rfl⟩ := List.mem_map.mp hp
    exact List.forall_mem_cons.mpr ⟨trivial,List.forall_mem_cons.mpr ⟨trivial,ih f hf⟩⟩

/-- A text is read as a piece with a value if it is made of the piece's tokens, and the piece is not
nested too deeply. -/
theorem Source.parse?_readable_iff {t : String} {s : Source} :
    Source.parse? t = some s ∧ s.Readable ↔ Lexed t.toList s.tokens ∧ s.Nested nestingLimit := by
  constructor
  · rintro ⟨h,hread⟩
    obtain ⟨ts,hts,hbuild⟩ := Option.bind_eq_some_iff.mp h
    obtain ⟨hspelled,hlexed⟩ := lexed_of_tokens? hts
    obtain ⟨htokens,hnested⟩ := tokens_of_build hbuild (.value []) trivial hread hspelled
    obtain rfl : ts = s.tokens := htokens
    exact ⟨hlexed hnested.readable_tokens,hnested⟩
  · rintro ⟨hlexed,hnested⟩
    refine ⟨?_,hnested.readable⟩
    rw [Source.parse?,hlexed.tokens?_eq (apart_tokens s),Option.bind_some,hnested.build_tokens]

end whole

end ReasonAct.Json
