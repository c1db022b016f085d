import Mathlib.Data.List.Pairwise
import ReasonAct.Arena.Shared
import ReasonAct.Proofs.Arena.Block
/-!
What was done to an arena, latest first. From its history alone it follows which handles are live
and which bytes each of them stands for.
-/
set_option autoImplicit false

namespace ReasonAct.Arena

inductive Request where
  | room (size : Nat)
  | bytes (data : List UInt8)
  | text (s : String)
  deriving DecidableEq

namespace Request

def serve (host : Host) : Request → Arena → Option (Handle × Arena)
  | .room size => Arena.alloc host size
  | .bytes data => Arena.allocBytes host data
  | .text s => Arena.allocText host s

def isText : Request → Bool
  | .text _ => true
  | _ => false

def size : Request → Nat
  | .room size => size
  | .bytes data => data.length
  | .text s => (Text.Utf8.encode s).length

def data? : Request → Option (List UInt8)
  | .room _ => none
  | .bytes data => some data
  | .text s => some (Text.Utf8.encode s)

/-- What a piece may hold at first. Memory that was used before may hold anything. -/
def Fills (unused : Prop) (found : List UInt8) : Request → Prop
  | .room size => found.length = size ∧ (unused → found = List.replicate size 0)
  | .bytes data => found = data
  | .text s => found = Text.Utf8.encode s

theorem size_of_data {r : Request} {data : List UInt8} (h : r.data? = some data) :
    r.size = data.length := by
  cases r with
  | room _ => contradiction
  | _ => rw [← Option.some.inj h]; rfl

theorem fills_of_data {r : Request} {data : List UInt8} (h : r.data? = some data)
    (unused : Prop) : r.Fills unused data := by
  cases r with
  | room _ => contradiction
  | _ => rw [← Option.some.inj h]; rfl

end Request

inductive Change where
  /-- A piece was handed out, with the bytes that were found in it. -/
  | issued (r : Request) (h : Handle) (found : List UInt8)
  | wrote (h : Handle) (data : List UInt8)
  | reset
  | destroyed
  deriving DecidableEq

def Handle.stop (h : Handle) : Nat := h.offset + roundUp h.len

def Handle.Apart (h k : Handle) : Prop := h.block = k.block → h.stop ≤ k.offset ∨ k.stop ≤ h.offset

instance : Std.Symm Handle.Apart where
  symm _ _ ha hb := (ha hb.symm).symm

namespace Change

def handle? : Change → Option Handle
  | .issued _ h _ => some h
  | _ => none

def slice? : Change → Option Handle
  | .issued r h _ => if r.isText then none else some h
  | _ => none

def continues : Change → Bool
  | .reset | .destroyed => false
  | _ => true

end Change

def handles (es : List Change) : List Handle := es.filterMap Change.handle?

def since (es : List Change) : List Change := es.takeWhile Change.continues

def live (es : List Change) : List Handle := handles (since es)

/-- The bytes that a handle stands for: those last written through it, or else found in it. -/
def contents (h : Handle) : List Change → Option (List UInt8)
  | [] => none
  | .issued _ k found :: es => if k = h then some found else contents h es
  | .wrote k data :: es => if k = h then some data else contents h es
  | .reset :: _ | .destroyed :: _ => none

section Simp

variable (r : Request) (h : Handle) (data : List UInt8) (es : List Change)

@[simp] theorem handles_nil : handles [] = [] := rfl
@[simp] theorem handles_issued : handles (.issued r h data :: es) = h :: handles es := rfl
@[simp] theorem handles_wrote : handles (.wrote h data :: es) = handles es := rfl
@[simp] theorem handles_reset : handles (.reset :: es) = handles es := rfl
@[simp] theorem handles_destroyed : handles (.destroyed :: es) = handles es := rfl
@[simp] theorem since_nil : since [] = [] := rfl
@[simp] theorem since_reset : since (.reset :: es) = [] := rfl
@[simp] theorem since_issued : since (.issued r h data :: es) =
    .issued r h data :: since es := rfl
@[simp] theorem since_wrote : since (.wrote h data :: es) = .wrote h data :: since es := rfl
@[simp] theorem live_nil : live [] = [] := rfl
@[simp] theorem live_issued : live (.issued r h data :: es) = h :: live es := rfl
@[simp] theorem live_wrote : live (.wrote h data :: es) = live es := rfl
@[simp] theorem live_reset : live (.reset :: es) = [] := rfl

end Simp

theorem mem_handles {h : Handle} {es : List Change} :
    h ∈ handles es ↔ ∃ r found, Change.issued r h found ∈ es := by
  constructor
  · intro hm
    obtain ⟨e,he,heq⟩ := List.mem_filterMap.mp hm
    cases e with
    | issued r k found =>
      obtain rfl := Option.some.inj heq
      exact ⟨r,found,he⟩
    | _ => contradiction
  · intro ⟨r,found,hr⟩
    exact List.mem_filterMap.mpr ⟨_,hr,rfl⟩

theorem since_append {new es : List Change} (h : ∀ e ∈ new, e.continues = true) :
    since (new ++ es) = new ++ since es := List.takeWhile_append_of_pos h

theorem continues_iff {es : List Change} :
    (∀ e ∈ es, e.continues = true) ↔ .reset ∉ es ∧ .destroyed ∉ es := by
  constructor
  · intro h
    exact ⟨fun hr => Bool.noConfusion (h _ hr),fun hd => Bool.noConfusion (h _ hd)⟩
  · intro ⟨hr,hd⟩ e he
    cases e with
    | reset => exact absurd he hr
    | destroyed => exact absurd he hd
    | _ => rfl

/-- A handle that was issued has the size that was asked for, and bears the stamp of the arena and
of its epoch. -/
structure Issued (id : Nat) (before : List Change) (r : Request) (h : Handle)
    (found : List UInt8) : Prop where
  arena : h.arena = id
  epoch : h.epoch = before.count .reset
  size : h.len = r.size
  filled : r.Fills (.reset ∉ before) found
  intact : .destroyed ∉ before

/-- A history that an arena can have. No two handles with room are the same. -/
structure Recorded (id : Nat) (es : List Change) : Prop where
  issues : ∀ r h found before after, es = after ++ .issued r h found :: before →
    Issued id before r h found
  distinct : (handles es).Pairwise fun h k => 0 < h.len → h ≠ k

namespace Recorded

variable {id : Nat} {es : List Change} {r : Request} {h : Handle} {found : List UInt8}

theorem nil (id : Nat) : Recorded id [] := ⟨by simp,by simp⟩

theorem arena_eq (hr : Recorded id es) (hm : .issued r h found ∈ es) : h.arena = id := by
  obtain ⟨after,before,heq⟩ := List.append_of_mem hm
  exact (hr.issues r h found before after heq).arena

theorem epoch_eq_iff (hr : Recorded id es) {before after : List Change}
    (heq : es = after ++ .issued r h found :: before) :
    h.epoch = es.count .reset ↔ .reset ∉ after := by
  have hepoch := (hr.issues r h found before after heq).epoch
  have hcount : es.count .reset = after.count .reset + before.count .reset := by
    rw [heq,List.count_append,List.count_cons_of_ne (by simp)]
  rw [hepoch,hcount,← List.count_eq_zero]
  omega

theorem mem_since (hr : Recorded id es) (hd : .destroyed ∉ es) (hm : .issued r h found ∈ es)
    (he : h.epoch = es.count .reset) : .issued r h found ∈ since es := by
  obtain ⟨after,before,rfl⟩ := List.append_of_mem hm
  have hreset := (hr.epoch_eq_iff rfl).mp he
  have hd' : Change.destroyed ∉ after := fun hx => hd (List.mem_append_left _ hx)
  rw [since_append (continues_iff.mpr ⟨hreset,hd'⟩)]
  simp

theorem len_of_shared (hr : Recorded id es) {r' : Request} {found' : List UInt8}
    (hm : .issued r h found ∈ es) (hm' : .issued r' h found' ∈ es) (hne : r ≠ r') : h.len = 0 := by
  have hd : es.Pairwise fun x y => ∀ k, x.handle? = some k → ∀ k', y.handle? = some k' →
      0 < k.len → k ≠ k' := List.pairwise_filterMap.mp hr.distinct
  have hsymm : Std.Symm fun x y : Change => ∀ k, x.handle? = some k → ∀ k', y.handle? = some k' →
      0 < k.len → k ≠ k' :=
    ⟨fun _ _ hxy k hk k' hk' hpos heq => hxy k' hk' k hk (heq ▸ hpos) heq.symm⟩
  have hcase := hd.forall hm hm' (fun heq => hne (Change.issued.inj heq).1) h rfl h rfl
  by_cases hpos : 0 < h.len
  · exact absurd rfl (hcase hpos)
  · omega

theorem cons (hr : Recorded id es) {e : Change} (he : e.handle? = none) :
    Recorded id (e :: es) := by
  refine ⟨?_,?_⟩
  · intro r h found before after heq
    cases after with
    | nil =>
      obtain ⟨rfl,-⟩ := List.cons.inj heq
      contradiction
    | cons x after => exact hr.issues r h found before after (List.cons.inj heq).2
  · have heq : handles (e :: es) = handles es := List.filterMap_cons_none he
    rw [heq]
    exact hr.distinct

theorem issued (hr : Recorded id es) (hi : Issued id es r h found)
    (hnew : ∀ k ∈ handles es, 0 < h.len → h ≠ k) : Recorded id (.issued r h found :: es) := by
  refine ⟨?_,List.pairwise_cons.mpr ⟨hnew,hr.distinct⟩⟩
  intro r' h' found' before after heq
  cases after with
  | nil =>
    obtain ⟨hfirst,rfl⟩ := List.cons.inj heq
    obtain ⟨rfl,rfl,rfl⟩ := Change.issued.inj hfirst
    exact hi
  | cons x after => exact hr.issues r' h' found' before after (List.cons.inj heq).2

theorem tail {e : Change} (hr : Recorded id (e :: es)) : Recorded id es := by
  refine ⟨?_,?_⟩
  · intro r h found before after heq
    exact hr.issues r h found before (e :: after) (by rw [heq]; rfl)
  · exact hr.distinct.sublist ((List.sublist_cons_self e es).filterMap _)

end Recorded

end ReasonAct.Arena
