import ReasonAct.Proofs.World.Orderly
/-!
The closing of a session, deed by deed. Closing from within a closing always gets as deep as it has
to, and what belongs to a session that is being closed is left to that closing alone.
-/
set_option autoImplicit false

namespace ReasonAct.World

variable {w w' : World} {busy : List Nat}

section Induction

theorem foldl_related {α : Type} {P : World → World → Prop} (refl : ∀ w, P w w)
    (trans : ∀ {w₁ w₂ w₃}, P w₁ w₂ → P w₂ w₃ → P w₁ w₃) (f : World → α → World)
    (hf : ∀ w x, Orderly busy w → Orderly busy (f w x) ∧ P w (f w x)) (xs : List α)
    (hw : Orderly busy w) : P w (xs.foldl f w) := by
  induction xs generalizing w with
  | nil => exact refl w
  | cons x xs ih =>
    obtain ⟨hx,hrel⟩ := hf w x hw
    exact trans hrel (ih hx)

/-- What holds between the worlds before and behind each closing. It is shown for one session, when
it holds already for all that is closed within. -/
structure Closing (P : List Nat → World → World → Prop) : Prop where
  refl : ∀ busy w, P busy w w
  trans : ∀ {busy w₁ w₂ w₃}, P busy w₁ w₂ → P busy w₂ w₃ → P busy w₁ w₃
  client : ∀ busy w (f : Client → Client) c, P busy w (w.updateClient f c)
  whole : ∀ {busy w i s w'}, Orderly busy w → w.sessions[i]? = some s → s.closed = false →
    Ripe busy s i w' → P (i :: busy) (w.updateSession marked i) w' →
    P busy w ((tearDown s i w').publish s.bus (closedEvent s w'.now))

namespace Closing

variable {P : List Nat → World → World → Prop} (h : Closing P)

include h

theorem disconnectBy {close : Nat → World → World} (hc : Closer close)
    (hclose : ∀ {busy w}, Orderly busy w → ∀ i, P busy w (close i w)) (hw : Orderly busy w)
    (client : Nat) : P busy w (disconnectBy close client w) := by
  have hout := updateClient_outline (w := w)
    (fun c => { c with connected := false, log := c.log ++ ["disconnect"] }) client
  exact h.trans (h.client _ _ _ _) (foldl_related (h.refl busy) h.trans (fun w i => close i w)
    (fun w i hw => ⟨(hc busy w i hw).1,hclose hw i⟩) _ (hout.orderly hw))

theorem alone {close : Nat → World → World} (hc : Closer close)
    (hclose : ∀ {busy w}, Orderly busy w → ∀ i, P busy w (close i w)) (hw : Orderly busy w)
    {i : Nat} {s : Session} (hs : w.sessions[i]? = some s) :
    P (i :: busy) (w.updateSession marked i) (alone close s i w) :=
  foldl_related (h.refl (i :: busy)) h.trans _
    (fun _ c hw => ⟨(disconnectBy_orderly hc c hw).1,h.disconnectBy hc hclose hw c⟩) s.clients
    (marked_orderly hw hs).1

theorem closeWithin (depth : Nat) (hw : Orderly busy w) (i : Nat) :
    P busy w (closeWithin depth i w) := by
  induction depth generalizing busy w i with
  | zero => exact h.refl busy w
  | succ depth ih =>
    have hc := closeWithin_orderly depth
    unfold World.closeWithin
    cases hs : w.sessions[i]? with
    | none =>
      simp only [closeBy,hs]
      exact h.refl busy w
    | some s =>
      cases hopen : s.closed with
      | true =>
        simp only [closeBy,hs,hopen,if_true]
        exact h.refl busy w
      | false =>
        obtain ⟨horder,hmoved⟩ := alone_orderly hc hw hs
        rw [closeBy_open _ hs hopen]
        exact h.whole hw hs hopen (ripe_of_unmoved hw hs hopen horder hmoved)
          (h.alone hc (fun hw i => ih hw i) hw hs)

theorem close (hw : Orderly busy w) (i : Nat) : P busy w (w.close i) := h.closeWithin _ hw i

theorem disconnect (hw : Orderly busy w) (client : Nat) : P busy w (w.disconnect client) :=
  h.disconnectBy close_orderly (fun hw i => h.close hw i) hw client

end Closing
end Induction

section Depth

theorem closeBy_of_not_open (close : Nat → World → World) {i : Nat}
    (h : ∀ s, w.sessions[i]? = some s → s.closed = true) : closeBy close i w = w := by
  unfold closeBy
  split
  · rfl
  · rename_i s hs
    rw [if_pos (h s hs)]

theorem closeWithin_of_not_open (depth : Nat) {i : Nat}
    (h : ∀ s, w.sessions[i]? = some s → s.closed = true) : closeWithin depth i w = w := by
  cases depth with
  | zero => rfl
  | succ depth => exact closeBy_of_not_open _ h

theorem open_or_not (w : World) (i : Nat) :
    (∃ s, w.sessions[i]? = some s ∧ s.closed = false) ∨
      ∀ s, w.sessions[i]? = some s → s.closed = true := by
  cases hs : w.sessions[i]? with
  | none => exact .inr fun s hs => nomatch hs
  | some s =>
    cases hopen : s.closed with
    | false => exact .inl ⟨s,rfl,hopen⟩
    | true => exact .inr fun s' hs' => Option.some.inj hs' ▸ hopen

end Depth

section TearDown

variable (s : Session) (i : Nat)

theorem getElem?_sessions_tearDown (w : World) (k : Nat) : (tearDown s i w).sessions[k]? =
    w.sessions[k]?.map fun s => if i = k then { s with arena := s.arena.destroy } else s := by
  simp only [tearDown,foldl_updateAgent,foldl_updateRegistry,updateSession]
  exact getElem?_modify_map _ i w.sessions k

theorem getElem?_agents_tearDown (w : World) (j : Nat) : (tearDown s i w).agents[j]? =
    w.agents[j]?.map fun a => if j ∈ s.agents then { a with shutDown := true } else a := by
  simp only [tearDown,foldl_updateAgent,foldl_updateRegistry,updateSession]
  exact getElem?_foldl_modify (f := fun a : Agent => { a with shutDown := true })
    (fun _ => rfl) _ _ _

theorem getElem?_registries_tearDown (w : World) (j : Nat) : (tearDown s i w).registries[j]? =
    w.registries[j]?.map fun r =>
      if j ∈ s.registries then { r with released := true, entries := [] } else r := by
  simp only [tearDown,foldl_updateAgent,foldl_updateRegistry,updateSession]
  exact getElem?_foldl_modify (f := fun r : Registry => { r with released := true, entries := [] })
    (fun _ => rfl) _ _ _

@[simp] theorem sessions_publish (bus : Option Nat) (e : Event) (w : World) :
    (w.publish bus e).sessions = w.sessions := by cases bus <;> rfl

@[simp] theorem agents_publish (bus : Option Nat) (e : Event) (w : World) :
    (w.publish bus e).agents = w.agents := by cases bus <;> rfl

@[simp] theorem registries_publish (bus : Option Nat) (e : Event) (w : World) :
    (w.publish bus e).registries = w.registries := by cases bus <;> rfl

@[simp] theorem now_publish (bus : Option Nat) (e : Event) (w : World) :
    (w.publish bus e).now = w.now := by cases bus <;> rfl

@[simp] theorem now_tearDown (w : World) : (tearDown s i w).now = w.now := by
  simp only [tearDown,foldl_updateAgent,foldl_updateRegistry,updateSession]

end TearDown

structure Untouched (i : Nat) (w w' : World) : Prop where
  session : w'.sessions[i]? = w.sessions[i]?
  agents : ∀ (j : Nat) (a : Agent), w.agents[j]? = some a → a.session = i → w'.agents[j]? = some a
  registries : ∀ (j : Nat) (r : Registry), w.registries[j]? = some r → r.session = i →
    w'.registries[j]? = some r

theorem Untouched.refl (i : Nat) (w : World) : Untouched i w w :=
  ⟨rfl,fun _ _ h _ => h,fun _ _ h _ => h⟩

theorem Untouched.trans {i : Nat} {w₁ w₂ w₃ : World} (h : Untouched i w₁ w₂)
    (hn : Untouched i w₂ w₃) : Untouched i w₁ w₃ :=
  ⟨hn.session.trans h.session,fun j a ha hs => hn.agents j a (h.agents j a ha hs) hs,
    fun j r hr hs => hn.registries j r (h.registries j r hr hs) hs⟩

theorem Untouched.tornDown {i k : Nat} {s : Session} (hripe : Ripe busy s i w') (hne : i ≠ k)
    (h : Untouched k (w.updateSession marked i) w') (bus : Option Nat) (e : Event) :
    Untouched k w ((tearDown s i w').publish bus e) := by
  have hsame : (w.updateSession marked i).sessions[k]? = w.sessions[k]? := by
    simp [updateSession,hne]
  refine ⟨?_,?_,?_⟩
  · rw [sessions_publish,getElem?_sessions_tearDown,h.session,hsame]
    simp [hne]
  · intro j a ha hak
    have hat := h.agents j a ha hak
    have hj : j ∉ s.agents := fun hm => hne (((hripe.agents j a hat).mpr hm).symm.trans hak)
    simp [getElem?_agents_tearDown,hat,hj]
  · intro j r hr hrk
    have hat := h.registries j r hr hrk
    have hj : j ∉ s.registries :=
      fun hm => hne (((hripe.registries j r hat).mpr hm).symm.trans hrk)
    simp [getElem?_registries_tearDown,hat,hj]

inductive Deed where
  | disconnect (client : Nat)
  | shutDown (agent : Nat)
  | release (registry : Nat)
  | destroy (session : Nat)
  | announce (bus : Option Nat) (e : Event)

def Deed.done (w : World) : Deed → World
  | .disconnect client => w.disconnect client
  | .shutDown agent => w.updateAgent (fun a => { a with shutDown := true }) agent
  | .release registry =>
    w.updateRegistry (fun r => { r with released := true, entries := [] }) registry
  | .destroy session => w.updateSession (fun s => { s with arena := s.arena.destroy }) session
  | .announce bus e => w.publish bus e

def ArenaIs (i : Nat) (destroyed : Bool) (w : World) : Prop :=
  ∃ s, w.sessions[i]? = some s ∧ s.closed = true ∧ s.arena.isDestroyed = destroyed

def AgentsAre (i : Nat) (down : Bool) (w : World) : Prop :=
  ∀ (j : Nat) (a : Agent), w.agents[j]? = some a → a.session = i → a.shutDown = down

def RegistriesAre (i : Nat) (gone : Bool) (w : World) : Prop :=
  ∀ (j : Nat) (r : Registry), w.registries[j]? = some r → r.session = i → r.released = gone

def Deed.Ready (i : Nat) (w : World) : Deed → Prop
  | .disconnect _ => ArenaIs i false w ∧ RegistriesAre i false w ∧ AgentsAre i false w
  | .shutDown _ => ArenaIs i false w ∧ RegistriesAre i false w
  | .release _ => ArenaIs i false w ∧ AgentsAre i true w
  | .destroy _ => ArenaIs i false w ∧ RegistriesAre i true w ∧ AgentsAre i true w
  | .announce _ _ => ArenaIs i true w ∧ RegistriesAre i true w ∧ AgentsAre i true w

section InTurn

variable {i : Nat} {s : Session}

theorem ArenaIs.destroy {destroyed : Bool} (h : ArenaIs i destroyed w) :
    ArenaIs i true ((Deed.destroy i).done w) := by
  obtain ⟨s,hs,hclosed,-⟩ := h
  exact ⟨{ s with arena := s.arena.destroy },by simp [Deed.done,updateSession,hs],hclosed,rfl⟩

end InTurn

end ReasonAct.World
