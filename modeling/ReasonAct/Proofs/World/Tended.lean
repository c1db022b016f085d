import Mathlib.Data.List.Basic
import ReasonAct.World.Session
/-!
Things that are made under a session, which tracks them: agents, registries. Each has ended when its
session is closed, and is tracked until then. While a session is being closed this need not hold
for what belongs to it, but it holds for all the rest.
-/
set_option autoImplicit false

namespace ReasonAct

section Lists

variable {α β : Type}

theorem getElem?_modify_map (f : α → α) (i : Nat) (xs : List α) (j : Nat) :
    (xs.modify i f)[j]? = xs[j]?.map fun x => if i = j then f x else x := by
  rw [List.getElem?_modify]
  rfl

theorem getElem?_foldl_modify {f : α → α} (hf : ∀ x, f (f x) = f x) (is : List Nat) (xs : List α)
    (j : Nat) : (is.foldl (fun xs i => xs.modify i f) xs)[j]? =
      xs[j]?.map fun x => if j ∈ is then f x else x := by
  induction is generalizing xs with
  | nil => simp
  | cons i is ih =>
    rw [List.foldl_cons,ih,getElem?_modify_map,Option.map_map]
    congr 1
    funext x
    by_cases hi : i = j
    · subst hi
      by_cases hm : i ∈ is <;> simp [hm,hf]
    · have hj : j ≠ i := fun h => hi h.symm
      simp [hi,hj]

theorem getElem?_of_map_eq {f : α → β} {xs ys : List α} (h : xs.map f = ys.map f) {i : Nat} {x : α}
    (hx : xs[i]? = some x) : ∃ y, ys[i]? = some y ∧ f y = f x := by
  have hy : (ys.map f)[i]? = some (f x) := by rw [← h,List.getElem?_map,hx,Option.map_some]
  rwa [List.getElem?_map,Option.map_eq_some_iff] at hy

theorem map_eq_of_map_eq {γ : Type} {f : α → β} {g : α → γ} (p : β → γ) (hp : ∀ x, p (f x) = g x)
    {xs ys : List α} (h : xs.map f = ys.map f) : xs.map g = ys.map g := by
  have hfun : p ∘ f = g := funext hp
  rw [← hfun,← List.map_map,← List.map_map,h]

theorem map_modify_of_eq {f : α → α} {g : α → β} {xs : List α} {i : Nat}
    (h : ∀ x, xs[i]? = some x → g (f x) = g x) : (xs.modify i f).map g = xs.map g := by
  refine List.ext_getElem? ?_
  intro j
  rw [List.getElem?_map,List.getElem?_map,getElem?_modify_map,Option.map_map]
  cases hj : xs[j]? with
  | none => rfl
  | some x =>
    by_cases hij : i = j
    · subst hij
      simp [h x hj]
    · simp [hij]

theorem getElem?_concat_cases {xs : List α} {x y : α} {i : Nat} (h : (xs ++ [x])[i]? = some y) :
    xs[i]? = some y ∨ i = xs.length ∧ y = x := by
  rw [List.getElem?_append] at h
  split at h
  · exact .inl h
  · rw [List.getElem?_singleton] at h
    split at h
    · exact .inr ⟨by omega,(Option.some.inj h).symm⟩
    · contradiction

end Lists

theorem mem_track {i j : Nat} {is : List Nat} : j ∈ track i is ↔ j = i ∨ j ∈ is := by
  unfold track
  split
  · rename_i hi
    constructor
    · exact .inr
    · intro h
      rcases h with rfl | h
      · exact hi
      · exact h
  · simp [or_comm]

/-- Things of one kind, each made under a session. It has `ended` when the session is closed, and is
tracked until then. -/
structure Tended {α : Type} (owner : α → Nat) (ended : α → Bool) (tracked : Session → List Nat)
    (busy : List Nat) (sessions : List Session) (items : List α) : Prop where
  settled : ∀ (i : Nat) (s : Session), sessions[i]? = some s → i ∉ busy → ∀ (j : Nat) (x : α),
    items[j]? = some x → owner x = i → ended x = s.closed ∧ (s.closed = false → j ∈ tracked s)
  made : ∀ (i : Nat) (s : Session), sessions[i]? = some s → ∀ j ∈ tracked s,
    ∃ x, items[j]? = some x ∧ owner x = i
  owned : ∀ (j : Nat) (x : α), items[j]? = some x → owner x < sessions.length

namespace Tended

variable {α : Type} {owner : α → Nat} {ended : α → Bool} {tracked : Session → List Nat}
  {busy : List Nat} {sessions sessions' : List Session} {items items' : List α} {i j : Nat}
  {s : Session} {x : α}

theorem of_map (h : Tended owner ended tracked busy sessions items)
    (hs : sessions'.map (fun s => (s.closed, tracked s)) =
      sessions.map fun s => (s.closed, tracked s))
    (hx : items'.map (fun x => (owner x, ended x)) = items.map fun x => (owner x, ended x)) :
    Tended owner ended tracked busy sessions' items' := by
  have hlen : sessions'.length = sessions.length := by simpa using congrArg List.length hs
  refine ⟨?_,?_,?_⟩
  · intro i s' hs' hi j x' hx' howner
    obtain ⟨s,hat,heq⟩ := getElem?_of_map_eq hs hs'
    obtain ⟨x,hitem,hxeq⟩ := getElem?_of_map_eq hx hx'
    obtain ⟨hclosed,htracked⟩ := Prod.mk.inj heq
    obtain ⟨hsame,hended⟩ := Prod.mk.inj hxeq
    rw [← hclosed,← htracked,← hended]
    exact h.settled i s hat hi j x hitem (hsame.trans howner)
  · intro i s' hs' j hj
    obtain ⟨s,hat,heq⟩ := getElem?_of_map_eq hs hs'
    obtain ⟨x,hitem,howner⟩ := h.made i s hat j ((Prod.mk.inj heq).2 ▸ hj)
    obtain ⟨x',hx',hxeq⟩ := getElem?_of_map_eq hx.symm hitem
    exact ⟨x',hx',(Prod.mk.inj hxeq).1.trans howner⟩
  · intro j x' hx'
    obtain ⟨x,hitem,hxeq⟩ := getElem?_of_map_eq hx hx'
    rw [hlen,← (Prod.mk.inj hxeq).1]
    exact h.owned j x hitem

theorem opened (h : Tended owner ended tracked busy sessions items) (hs : tracked s = []) :
    Tended owner ended tracked busy (sessions ++ [s]) items := by
  refine ⟨?_,?_,?_⟩
  · intro i s' hs' hi j x hx howner
    rcases getElem?_concat_cases hs' with hs' | ⟨rfl,rfl⟩
    · exact h.settled i s' hs' hi j x hx howner
    · have hlt := h.owned j x hx
      omega
  · intro i s' hs' j hj
    rcases getElem?_concat_cases hs' with hs' | ⟨rfl,rfl⟩
    · exact h.made i s' hs' j hj
    · simp [hs] at hj
  · intro j x hx
    have hlt := h.owned j x hx
    simp only [List.length_append,List.length_singleton]
    omega

theorem tracking (h : Tended owner ended tracked busy sessions items) (hs : sessions[i]? = some s)
    (hopen : s.closed = false) {f : Session → Session}
    (hf : ∀ s, (f s).closed = s.closed ∧ tracked (f s) = track j (tracked s))
    (hx : items'[j]? = some x) (howner : owner x = i)
    (hold : ∀ (k : Nat) (y : α), items[k]? = some y → items'[k]? = some y)
    (hnew : ∀ (k : Nat) (y : α), items'[k]? = some y → items[k]? = some y ∨ k = j ∧ ended y = false) :
    Tended owner ended tracked busy (sessions.modify i f) items' := by
  have hlt : i < sessions.length := (List.getElem?_eq_some_iff.mp hs).1
  refine ⟨?_,?_,?_⟩
  · intro k s' hs' hk l y hy hyk
    rw [getElem?_modify_map] at hs'
    obtain ⟨s₀,hs₀,rfl⟩ := Option.map_eq_some_iff.mp hs'
    rcases hnew l y hy with hy' | ⟨rfl,hended⟩
    · obtain ⟨hended,htracked⟩ := h.settled k s₀ hs₀ hk l y hy' hyk
      split
      · rw [(hf s₀).1,(hf s₀).2]
        exact ⟨hended,fun hc => mem_track.mpr (.inr (htracked hc))⟩
      · exact ⟨hended,htracked⟩
    · obtain rfl := Option.some.inj (hx.symm.trans hy)
      obtain rfl : i = k := howner.symm.trans hyk
      obtain rfl := Option.some.inj (hs.symm.trans hs₀)
      rw [if_pos rfl,(hf s).1,(hf s).2]
      exact ⟨hended.trans hopen.symm,fun _ => mem_track.mpr (.inl rfl)⟩
  · intro k s' hs' l hl
    rw [getElem?_modify_map] at hs'
    obtain ⟨s₀,hs₀,rfl⟩ := Option.map_eq_some_iff.mp hs'
    split at hl
    · rename_i hik
      rw [(hf s₀).2] at hl
      rcases mem_track.mp hl with rfl | hl
      · exact ⟨x,hx,howner.trans hik⟩
      · obtain ⟨y,hy,hyk⟩ := h.made k s₀ hs₀ l hl
        exact ⟨y,hold l y hy,hyk⟩
    · obtain ⟨y,hy,hyk⟩ := h.made k s₀ hs₀ l hl
      exact ⟨y,hold l y hy,hyk⟩
  · intro l y hy
    rw [List.length_modify]
    rcases hnew l y hy with hy' | ⟨rfl,-⟩
    · exact h.owned l y hy'
    · obtain rfl := Option.some.inj (hx.symm.trans hy)
      exact howner ▸ hlt

theorem closing (h : Tended owner ended tracked busy sessions items) {f : Session → Session}
    (hf : ∀ s, tracked (f s) = []) :
    Tended owner ended tracked (i :: busy) (sessions.modify i f) items := by
  refine ⟨?_,?_,?_⟩
  · intro k s' hs' hk j x hx howner
    have hne : i ≠ k := fun heq => hk (by simp [heq])
    have hbusy : k ∉ busy := fun hm => hk (by simp [hm])
    rw [getElem?_modify_map] at hs'
    obtain ⟨s₀,hs₀,rfl⟩ := Option.map_eq_some_iff.mp hs'
    rw [if_neg hne]
    exact h.settled k s₀ hs₀ hbusy j x hx howner
  · intro k s' hs' j hj
    rw [getElem?_modify_map] at hs'
    obtain ⟨s₀,hs₀,rfl⟩ := Option.map_eq_some_iff.mp hs'
    split at hj
    · simp [hf] at hj
    · exact h.made k s₀ hs₀ j hj
  · intro j x hx
    rw [List.length_modify]
    exact h.owned j x hx

theorem closed (h : Tended owner ended tracked (i :: busy) sessions items)
    (hs : sessions[i]? = some s) (hclosed : s.closed = true) {js : List Nat}
    (hjs : ∀ (j : Nat) (x : α), items[j]? = some x → (owner x = i ↔ j ∈ js)) (mark : α → α)
    (hmark : ∀ x, mark (mark x) = mark x ∧ owner (mark x) = owner x ∧ ended (mark x) = true) :
    Tended owner ended tracked busy sessions (js.foldl (fun xs j => xs.modify j mark) items) := by
  have hget (j : Nat) := getElem?_foldl_modify (fun x => (hmark x).1) js items j
  have howner (j : Nat) (x : α) : owner (if j ∈ js then mark x else x) = owner x := by
    split
    · exact (hmark x).2.1
    · rfl
  refine ⟨?_,?_,?_⟩
  · intro k s' hs' hk j x' hx' hxk
    rw [hget] at hx'
    obtain ⟨x,hx,rfl⟩ := Option.map_eq_some_iff.mp hx'
    rw [howner] at hxk
    by_cases hki : k = i
    · subst hki
      obtain rfl := Option.some.inj (hs.symm.trans hs')
      rw [if_pos ((hjs j x hx).mp hxk),(hmark x).2.2,hclosed]
      exact ⟨rfl,fun hfalse => nomatch hfalse⟩
    · have hj : j ∉ js := fun hm => hki (hxk.symm.trans ((hjs j x hx).mpr hm))
      rw [if_neg hj]
      exact h.settled k s' hs' (by simp [hki,hk]) j x hx hxk
  · intro k s' hs' j hj
    obtain ⟨x,hx,hxk⟩ := h.made k s' hs' j hj
    exact ⟨_,by rw [hget,hx,Option.map_some],(howner j x).trans hxk⟩
  · intro j x' hx'
    rw [hget] at hx'
    obtain ⟨x,hx,rfl⟩ := Option.map_eq_some_iff.mp hx'
    rw [howner]
    exact h.owned j x hx

theorem owner_iff (h : Tended owner ended tracked busy sessions items) (hs : sessions[i]? = some s)
    (hi : i ∉ busy) (hopen : s.closed = false) (hx : items[j]? = some x) :
    owner x = i ↔ j ∈ tracked s := by
  constructor
  · intro howner
    exact (h.settled i s hs hi j x hx howner).2 hopen
  · intro hj
    obtain ⟨y,hy,hyi⟩ := h.made i s hs j hj
    obtain rfl := Option.some.inj (hx.symm.trans hy)
    exact hyi

end Tended

end ReasonAct
