import Mathlib.Data.List.Basic
import Mathlib.Data.List.Infix
import Mathlib.Data.List.Induction
import Mathlib.Data.List.TakeWhile
import Mathlib.Tactic.TFAE
import ReasonAct.Proofs.Memory.Append
/-!
What a bounded memory keeps of a conversation. Its messages are a suffix of all that was appended,
and no tool message stands there without the message that asked for it, as long as no turn has more
tool messages than the bound. A longer turn is cut while it is still being appended, and its
remaining tool messages stand alone.
-/
set_option autoImplicit false

namespace ReasonAct

/-- The tool message `t` answers one of the calls of `m`. -/
def Message.Requests (m t : Message) : Prop :=
  m.role = .assistant ∧ t.toolCallId ∈ m.toolCalls.map fun call => some call.id

instance (m t : Message) : Decidable (m.Requests t) := inferInstanceAs (Decidable (_ ∧ _))

namespace Memory

/-- Before each tool message stands the message that asked for it, with nothing but other tool
messages in between. -/
def Requested (ms : List Message) : Prop :=
  ∀ before t after, ms = before ++ t :: after → t.role = .tool →
    ∃ early m results, before = early ++ m :: results ∧ m.Requests t ∧
      ∀ r ∈ results, r.role = .tool

inductive Turn : List Message → Prop where
  | plain (m : Message) (role : m.role ≠ .tool) (calls : m.toolCalls = []) : Turn [m]
  | calling (m : Message) (results : List Message) (calls : m.toolCalls ≠ [])
      (all : results.length = m.toolCalls.length)
      (role : m.role = .assistant) (roles : ∀ r ∈ results, r.role = .tool)
      (answers : ∀ r ∈ results, m.Requests r) : Turn (m :: results)

theorem Turn.requested {ms : List Message} (h : Turn ms) : Requested ms := by
  intro before t after hms ht
  cases h with
  | plain m role =>
    cases before with
    | nil =>
      obtain ⟨rfl,-⟩ := List.cons.inj hms
      exact absurd ht role
    | cons x before => simp at hms
  | calling m results calls all role roles answers =>
    cases before with
    | nil =>
      obtain ⟨rfl,-⟩ := List.cons.inj hms
      simp [role] at ht
    | cons x before =>
      obtain ⟨rfl,rfl⟩ := List.cons.inj hms
      exact ⟨[],m,before,rfl,answers t (by simp),fun r hr => roles r (by simp [hr])⟩

theorem Requested.append {xs ys : List Message} (hx : Requested xs) (hy : Requested ys) :
    Requested (xs ++ ys) := by
  intro before t after h ht
  rcases List.append_eq_append_iff.mp h with ⟨mid,rfl,hys⟩ | ⟨mid,rfl,hmid⟩
  · obtain ⟨early,m,results,rfl,hm,hr⟩ := hy mid t after hys ht
    exact ⟨xs ++ early,m,results,by simp,hm,hr⟩
  cases mid with
  | nil =>
    obtain ⟨early,m,results,hn,-⟩ := hy [] t after (by simpa using hmid.symm) ht
    simp at hn
  | cons x mid =>
    obtain ⟨rfl,-⟩ := List.cons.inj hmid
    exact hx before t mid rfl ht

theorem requested_flatten {turns : List (List Message)} (h : ∀ turn ∈ turns, Turn turn) :
    Requested turns.flatten := by
  induction turns with
  | nil =>
    intro before t after h
    simp at h
  | cons turn turns ih =>
    simp only [List.mem_cons,forall_eq_or_imp] at h
    exact h.1.requested.append (ih h.2)

theorem Requested.of_earlier {xs ys : List Message} (h : Requested ys) (hp : xs <+: ys) :
    Requested xs := by
  obtain ⟨rest,rfl⟩ := hp
  intro before t after hxs ht
  exact h before t (after ++ rest) (by simp [hxs]) ht

def Orphaned (ms : List Message) : Prop := ∃ t rest, ms = t :: rest ∧ t.role = .tool

theorem Requested.not_orphaned {ms : List Message} (h : Requested ms) : ¬ Orphaned ms := by
  rintro ⟨t,rest,rfl,ht⟩
  obtain ⟨early,m,results,hn,-⟩ := h [] t rest rfl ht
  simp at hn

/-- The message that asked is lost only when the list is cut right behind it, or later. -/
theorem Requested.of_suffix {xs ys : List Message} (h : Requested ys) (hs : xs <:+ ys)
    (hx : ¬ Orphaned xs) : Requested xs := by
  obtain ⟨gone,rfl⟩ := hs
  intro before t after hxs ht
  obtain ⟨early,m,results,hb,hm,hr⟩ := h (gone ++ before) t after (by simp [hxs]) ht
  rcases List.append_eq_append_iff.mp hb with ⟨mid,rfl,hmid⟩ | ⟨mid,rfl,hmid⟩
  · exact ⟨mid,m,results,hmid,hm,hr⟩
  cases mid with
  | nil => exact ⟨[],m,results,hmid.symm,hm,hr⟩
  | cons x mid =>
    obtain ⟨rfl,rfl⟩ := List.cons.inj hmid
    cases before with
    | nil => exact absurd ⟨t,after,hxs,ht⟩ hx
    | cons b before => exact absurd ⟨b,_,hxs,hr b (by simp)⟩ hx

def held (bound : Nat) (ms : List Message) : List Message :=
  ms.foldl (fun kept m => evict bound (kept ++ [m])) []

@[simp] theorem held_nil (bound : Nat) : held bound [] = [] := rfl

@[simp] theorem held_concat (bound : Nat) (ms : List Message) (m : Message) :
    held bound (ms ++ [m]) = evict bound (held bound ms ++ [m]) := by simp [held]

theorem appendAll_kept (bound : Nat) (ms : List Message) :
    appendAll (.empty (.kept bound)) ms = .ok ⟨.kept bound, held bound ms, ms.length⟩ := by
  induction ms using List.reverseRecOn with
  | nil => rfl
  | append_singleton ms m ih =>
    rw [appendAll_append,ih,held_concat,List.length_append]
    rfl

theorem evict_suffix (bound : Nat) (ms : List Message) : evict bound ms <:+ ms := by
  unfold evict
  split
  · exact List.suffix_rfl
  · exact (List.dropWhile_suffix _).trans (List.drop_suffix _ _)

theorem held_suffix (bound : Nat) (ms : List Message) : held bound ms <:+ ms := by
  induction ms using List.reverseRecOn with
  | nil => exact List.suffix_rfl
  | append_singleton ms m ih =>
    rw [held_concat]
    exact (evict_suffix bound _).trans ((List.suffix_append_inj_of_length_eq rfl).mpr ⟨ih,rfl⟩)

theorem length_evict_le {bound : Nat} (hb : 1 ≤ bound) (ms : List Message) :
    (evict bound ms).length ≤ bound := by
  unfold evict
  split
  · omega
  · refine (List.dropWhile_suffix _).length_le.trans ?_
    rw [List.length_drop]
    omega

theorem length_held_le {bound : Nat} (hb : 1 ≤ bound) (ms : List Message) :
    (held bound ms).length ≤ bound := by
  induction ms using List.reverseRecOn with
  | nil => simp
  | append_singleton ms m => simpa using length_evict_le hb _

theorem dropWhile_not_orphaned (ms : List Message) :
    ¬ Orphaned (ms.dropWhile (·.role = .tool)) := by
  rintro ⟨t,rest,ht,hrole⟩
  have hn := List.head?_dropWhile_not (fun m : Message => decide (m.role = .tool)) ms
  rw [ht] at hn
  simp [hrole] at hn

theorem evict_not_orphaned {bound : Nat} {ms : List Message} (h : ¬ Orphaned ms) :
    ¬ Orphaned (evict bound ms) := by
  unfold evict
  split
  · exact h
  · exact dropWhile_not_orphaned _

theorem evict_eq_nil {bound : Nat} {ms : List Message} (hms : ms ≠ [])
    (h : evict bound ms = []) :
    ∃ results, results <:+ ms ∧ results.length = bound ∧ ∀ r ∈ results, r.role = .tool := by
  unfold evict at h
  split at h
  · exact absurd h hms
  · refine ⟨ms.drop (ms.length - bound),List.drop_suffix _ _,?_,?_⟩
    · rw [List.length_drop]
      omega
    · simpa using List.dropWhile_eq_nil_iff.mp h

theorem held_eq_nil {bound : Nat} {ms : List Message} (hms : ms ≠ []) (h : held bound ms = []) :
    ∃ results, results <:+ ms ∧ results.length = bound ∧ ∀ r ∈ results, r.role = .tool := by
  induction ms using List.reverseRecOn with
  | nil => exact absurd rfl hms
  | append_singleton ms m =>
    rw [held_concat] at h
    obtain ⟨results,hs,hr⟩ := evict_eq_nil (by simp) h
    exact ⟨results,hs.trans ((List.suffix_append_inj_of_length_eq rfl).mpr
      ⟨held_suffix bound ms,rfl⟩),hr⟩

/-- A conversation in which so many tool messages at most follow each other. -/
def Short (bound : Nat) (ms : List Message) : Prop :=
  ∀ results, results <:+: ms → (∀ r ∈ results, r.role = .tool) → results.length ≤ bound

theorem Short.of_earlier {bound : Nat} {xs ys : List Message} (h : Short bound ys)
    (hp : xs <+: ys) : Short bound xs :=
  fun results hr => h results (hr.trans hp.isInfix)

theorem held_not_orphaned {bound : Nat} {ms : List Message} (h : Requested ms)
    (hs : Short bound ms) : ¬ Orphaned (held bound ms) := by
  induction ms using List.reverseRecOn with
  | nil => simp [Orphaned]
  | append_singleton ms m ih =>
    have hp : ms <+: ms ++ [m] := List.prefix_append _ _
    have ih := ih (h.of_earlier hp) (hs.of_earlier hp)
    rw [held_concat]
    apply evict_not_orphaned
    rintro ⟨t,rest,ht,hrole⟩
    cases hheld : held bound ms with
    | cons x xs =>
      rw [hheld,List.cons_append] at ht
      obtain ⟨rfl,-⟩ := List.cons.inj ht
      exact ih ⟨x,xs,hheld,hrole⟩
    | nil =>
      rw [hheld] at ht
      obtain ⟨rfl,-⟩ := List.cons.inj ht
      -- The message that asked is gone already, with a full run of tool messages behind it.
      have hms : ms ≠ [] := by
        rintro rfl
        exact h.not_orphaned ⟨m,[],rfl,hrole⟩
      obtain ⟨results,hr,hlen,hall⟩ := held_eq_nil hms hheld
      have hr : results ++ [m] <:+ ms ++ [m] :=
        (List.suffix_append_inj_of_length_eq rfl).mpr ⟨hr,rfl⟩
      have hle := hs (results ++ [m]) hr.isInfix (by
        intro r hr
        rcases List.mem_append.mp hr with hr | hr
        · exact hall r hr
        · rwa [List.mem_singleton.mp hr])
      rw [List.length_append,hlen,List.length_singleton] at hle
      omega

theorem short_of_not_orphaned {bound : Nat} (hb : 1 ≤ bound) {ms : List Message}
    (h : ∀ shown, shown <+: ms → ¬ Orphaned (held bound shown)) : Short bound ms := by
  intro results hr hall
  by_contra hlong
  obtain ⟨before,after,rfl⟩ := hr
  obtain ⟨early,t,rest,rfl,hlen⟩ : ∃ early t rest, results = early ++ t :: rest ∧
      early.length = bound :=
    ⟨results.take bound,results[bound],results.drop (bound + 1),by simp,by simp; omega⟩
  have hearly : held bound (before ++ early) <:+ early :=
    List.suffix_of_suffix_length_le (held_suffix bound _) (List.suffix_append _ _)
      (by rw [hlen]; exact length_held_le hb _)
  have hnil : held bound (before ++ early) = [] := by
    cases hheld : held bound (before ++ early) with
    | nil => rfl
    | cons x xs =>
      have hx : x ∈ early := hearly.subset (by simp [hheld])
      exact absurd ⟨x,xs,hheld,hall x (by simp [hx])⟩
        (h (before ++ early) ⟨t :: rest ++ after,by simp⟩)
  refine h (before ++ early ++ [t]) ⟨rest ++ after,by simp⟩ ⟨t,[],?_,hall t (by simp)⟩
  rw [held_concat,hnil]
  simp [evict,hb]

theorem held_requested {bound : Nat} {ms : List Message} (h : Requested ms)
    (hs : Short bound ms) : Requested (held bound ms) :=
  h.of_suffix (held_suffix bound ms) (held_not_orphaned h hs)

/-- All that a bounded memory shows while a conversation is appended, message by message, is free
of orphans exactly when no run of tool messages is longer than the bound. -/
theorem eviction_keeps_requests_iff (bound : Nat) (hb : 1 ≤ bound) (turns : List (List Message))
    (hturns : ∀ turn ∈ turns, Turn turn) (ms : List Message) (hms : ms <+: turns.flatten) :
    List.TFAE [
      ∀ shown, shown <+: ms → ∃ m, appendAll (.empty (.kept bound)) shown = .ok m ∧
        Requested m.messages,
      ∀ shown, shown <+: ms → ∃ m, appendAll (.empty (.kept bound)) shown = .ok m ∧
        ¬ Orphaned m.messages,
      Short bound ms] := by
  have hreq : Requested ms := (requested_flatten hturns).of_earlier hms
  tfae_have 1 → 2
  | h, shown, hp => by
    obtain ⟨m,hm,hr⟩ := h shown hp
    exact ⟨m,hm,hr.not_orphaned⟩
  tfae_have 2 → 3
  | h => by
    refine short_of_not_orphaned hb fun shown hp => ?_
    obtain ⟨m,hm,ho⟩ := h shown hp
    rw [appendAll_kept] at hm
    obtain rfl := Except.ok.inj hm
    exact ho
  tfae_have 3 → 1
  | h, shown, hp =>
    ⟨_,appendAll_kept bound shown,held_requested (hreq.of_earlier hp) (h.of_earlier hp)⟩
  tfae_finish

section Examples

private def asking : Message :=
  .assistantToolCalls none [⟨"a", "lookup", ""⟩, ⟨"b", "lookup", ""⟩] default

private def answering : List Message := [.toolResult "a" "1" default, .toolResult "b" "2" default]

private theorem asking_turn : Turn (asking :: answering) :=
  .calling _ _ (by decide) rfl rfl (by decide) (by decide)

theorem eviction_keeps_requests_two :
    1 ≤ 2 ∧ ∀ shown, shown <+: .user "hi" default :: asking :: answering →
      ∃ m, appendAll (.empty (.kept 2)) shown = .ok m ∧ Requested m.messages := by
  refine ⟨by decide,?_⟩
  have h := eviction_keeps_requests_iff 2 (by decide)
    [[.user "hi" default], asking :: answering]
    (by simpa using ⟨.plain _ (by decide) rfl,asking_turn⟩) _ List.prefix_rfl
  refine (h.out 0 2).mpr ?_
  intro results hr hall
  have hf := (hr.sublist.filter fun m => decide (m.role = .tool)).length_le
  rw [List.filter_eq_self.mpr (by simpa using hall)] at hf
  exact hf

/-- Two calls in a turn and a bound of one: the second output stands alone. -/
theorem eviction_orphans_second_result :
    Turn (asking :: answering) ∧ ∃ m, appendAll (.empty (.kept 1)) (asking :: answering) = .ok m ∧
      Orphaned m.messages ∧ ¬ Requested m.messages := by
  refine ⟨asking_turn,_,rfl,?_⟩
  have h : Orphaned [Message.toolResult "b" "2" default] := ⟨_,[],rfl,rfl⟩
  exact ⟨h,fun hr => hr.not_orphaned h⟩

end Examples

end Memory
end ReasonAct
