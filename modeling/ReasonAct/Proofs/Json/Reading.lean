import ReasonAct.Json.Parser
import ReasonAct.Proofs.Json.Scanning
set_option autoImplicit false

namespace ReasonAct.Json

theorem close_within {stack : List Frame} (h : stack.length < nestingLimit) (f : Frame) :
    close f stack = put f.close stack := by
  have hdrop : stack.drop (nestingLimit-1) = [] :=
    List.drop_eq_nil_of_le (by omega)
  simp [close,hdrop]

namespace Source

/-- The automaton reads the tokens of the piece as the piece, at so many levels. -/
def Builds (s : Source) (levels : Nat) : Prop := ∀ (stack : List Frame) (ts : List Token),
  stack.length + levels ≤ nestingLimit →
    build (s.tokens ++ ts) (.awaiting .value stack) = build ts (put s stack)

theorem Nested.build_first {n : Nat} {s : Source} (h : Nested n s) (stack : List Frame)
    (ts : List Token) :
    build (s.tokens ++ ts) (.awaiting .valueOrClose stack) =
      build (s.tokens ++ ts) (.awaiting .value stack) := by
  cases h with
  | null | bool _ _ | number _ _ | string _ _ => rfl
  | @array _ xs _ => cases xs <;> rfl
  | @object _ fs _ => cases fs <;> rfl

theorem build_items {xs : List Source} {n : Nat} (h : ∀ x ∈ xs, x.Builds n) (before : List Source)
    (stack : List Frame) (ts : List Token) (hdepth : stack.length + (n+1) ≤ nestingLimit) :
    build (tokensItems xs ++ ts) (.awaiting .commaOrClose (.array before :: stack)) =
      build ts (put (.array (before.reverse ++ xs)) stack) := by
  induction xs generalizing before with
  | nil =>
    have hclose : build (.closeArray :: ts) (.awaiting .commaOrClose (.array before :: stack)) =
        build ts (close (.array before) stack) := rfl
    simpa [tokensItems,Frame.close] using hclose.trans
      (congrArg _ (close_within (by omega) (.array before)))
  | cons x xs ih =>
    have hx := h x (by simp) (.array before :: stack) (tokensItems xs ++ ts)
      (by simp only [List.length_cons]; omega)
    have hxs := ih (fun y hy => h y (by simp [hy])) (x :: before)
    have hcomma : build (.comma :: (x.tokens ++ (tokensItems xs ++ ts)))
        (.awaiting .commaOrClose (.array before :: stack)) =
        build (x.tokens ++ (tokensItems xs ++ ts))
          (.awaiting .value (.array before :: stack)) := rfl
    simpa [tokensItems] using hcomma.trans (hx.trans hxs)

theorem build_fields {fs : List (String × Source)} {n : Nat} (h : ∀ f ∈ fs, f.2.Builds n)
    (before : List (String × Source)) (key : String) (stack : List Frame) (ts : List Token)
    (hdepth : stack.length + (n+1) ≤ nestingLimit) :
    build (tokensFields fs ++ ts) (.awaiting .commaOrClose (.object before key true :: stack)) =
      build ts (put (.object (before.reverse ++ fs)) stack) := by
  induction fs generalizing before key with
  | nil =>
    have hclose : build (.closeObject :: ts)
        (.awaiting .commaOrClose (.object before key true :: stack)) =
        build ts (close (.object before key true) stack) := rfl
    simpa [tokensFields,Frame.close] using hclose.trans
      (congrArg _ (close_within (by omega) (.object before key true)))
  | cons f fs ih =>
    obtain ⟨k,x⟩ := f
    have hx := h (k,x) (by simp) (.object before k true :: stack) (tokensFields fs ++ ts)
      (by simp only [List.length_cons]; omega)
    have hfs := ih (fun g hg => h g (by simp [hg])) ((k,x) :: before) k
    have hkey : build (.comma :: .text (some k) :: .colon :: (x.tokens ++ (tokensFields fs ++ ts)))
        (.awaiting .commaOrClose (.object before key true :: stack)) =
        build (x.tokens ++ (tokensFields fs ++ ts))
          (.awaiting .value (.object before k true :: stack)) := rfl
    simpa [tokensFields] using hkey.trans (hx.trans hfs)

theorem Nested.builds {n : Nat} {s : Source} (h : Nested n s) : s.Builds n := by
  induction h with
  | null | bool _ _ | number _ _ | string _ _ => exact fun _ _ _ => rfl
  | @array n xs items ih =>
    intro stack ts hdepth
    cases xs with
    | nil => exact congrArg _ (close_within (by omega) (.array []))
    | cons x xs =>
      have hfirst := (items x (by simp)).build_first (.array [] :: stack) (tokensItems xs ++ ts)
      have hx := ih x (by simp) (.array [] :: stack) (tokensItems xs ++ ts)
        (by simp only [List.length_cons]; omega)
      have hxs := build_items (List.forall_mem_cons.mp ih).2 [x] stack ts hdepth
      have hopen : build (.openArray :: (x.tokens ++ (tokensItems xs ++ ts)))
          (.awaiting .value stack) =
          build (x.tokens ++ (tokensItems xs ++ ts))
            (.awaiting .valueOrClose (.array [] :: stack)) := rfl
      simpa [tokens] using hopen.trans (hfirst.trans (hx.trans hxs))
  | @object n fs _ ih =>
    intro stack ts hdepth
    cases fs with
    | nil => exact congrArg _ (close_within (by omega) (.object [] "" true))
    | cons f fs =>
      obtain ⟨k,x⟩ := f
      have hx := ih (k,x) (by simp) (.object [] k true :: stack) (tokensFields fs ++ ts)
        (by simp only [List.length_cons]; omega)
      have hfs := build_fields (List.forall_mem_cons.mp ih).2 [(k,x)] k stack ts hdepth
      have hopen : build (.openObject :: .text (some k) :: .colon ::
          (x.tokens ++ (tokensFields fs ++ ts))) (.awaiting .value stack) =
          build (x.tokens ++ (tokensFields fs ++ ts))
            (.awaiting .value (.object [] k true :: stack)) := rfl
      simpa [tokens] using hopen.trans (hx.trans hfs)

theorem Nested.build_tokens {s : Source} (h : Nested nestingLimit s) :
    build s.tokens (.awaiting .value []) = some s := by
  have hbuild := h.builds [] [] (by simp)
  rw [List.append_nil] at hbuild
  rw [hbuild]
  rfl

/-- A piece that is not nested too deeply is read back from its text. -/
theorem Within.parse?_text {s : Source} (h : Within nestingLimit s) : parse? s.text = some s := by
  simp [parse?,text,h.tokens?_chars,h.nested.build_tokens]

end Source

theorem Sorted.parse?_text {j : Json} (h : j.Sorted) (hwithin : j.source.Within nestingLimit) :
    parse? j.text = some j := by
  simp [parse?,text,hwithin.parse?_text,h.value?_source]

end ReasonAct.Json
