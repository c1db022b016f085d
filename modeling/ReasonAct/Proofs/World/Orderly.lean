import ReasonAct.Proofs.World.Tended
import ReasonAct.World.Tool
set_option autoImplicit false

namespace ReasonAct.World

/-- The world is in order, apart from the sessions that are `busy` closing. -/
structure Orderly (busy : List Nat) (w : World) : Prop where
  arenas : ∀ (i : Nat) (s : Session), w.sessions[i]? = some s → i ∉ busy →
    s.arena.isDestroyed = s.closed
  closing : ∀ i ∈ busy, ∃ s : Session, w.sessions[i]? = some s ∧ s.closed = true
  agents : Tended Agent.session Agent.shutDown Session.agents busy w.sessions w.agents
  registries : Tended Registry.session Registry.released Session.registries busy w.sessions
    w.registries
  paired : ∀ (j : Nat) (a : Agent), w.agents[j]? = some a → ∀ k, a.registry = some k →
    ∃ r : Registry, w.registries[k]? = some r ∧ r.session = a.session

/-- What was made stays, under the session it was made under, and what was closed stays closed. -/
structure Lasting (w w' : World) : Prop where
  sessions : ∀ (i : Nat) (s : Session), w.sessions[i]? = some s →
    ∃ s' : Session, w'.sessions[i]? = some s' ∧ (s.closed = true → s'.closed = true)
  agents : ∀ (j : Nat) (a : Agent), w.agents[j]? = some a →
    ∃ a' : Agent, w'.agents[j]? = some a' ∧ a'.session = a.session ∧ a'.registry = a.registry
  registries : ∀ (j : Nat) (r : Registry), w.registries[j]? = some r →
    ∃ r' : Registry, w'.registries[j]? = some r' ∧ r'.session = r.session

theorem Lasting.refl (w : World) : Lasting w w :=
  ⟨fun _ s h => ⟨s,h,id⟩,fun _ a h => ⟨a,h,rfl,rfl⟩,fun _ r h => ⟨r,h,rfl⟩⟩

theorem Lasting.trans {w₁ w₂ w₃ : World} (h : Lasting w₁ w₂) (hn : Lasting w₂ w₃) :
    Lasting w₁ w₃ := by
  refine ⟨?_,?_,?_⟩
  · intro i s hs
    obtain ⟨s₂,hs₂,hc⟩ := h.sessions i s hs
    obtain ⟨s₃,hs₃,hc'⟩ := hn.sessions i s₂ hs₂
    exact ⟨s₃,hs₃,fun hclosed => hc' (hc hclosed)⟩
  · intro j a ha
    obtain ⟨a₂,ha₂,hs,hr⟩ := h.agents j a ha
    obtain ⟨a₃,ha₃,hs',hr'⟩ := hn.agents j a₂ ha₂
    exact ⟨a₃,ha₃,hs'.trans hs,hr'.trans hr⟩
  · intro j r hr
    obtain ⟨r₂,hr₂,hs⟩ := h.registries j r hr
    obtain ⟨r₃,hr₃,hs'⟩ := hn.registries j r₂ hr₂
    exact ⟨r₃,hr₃,hs'.trans hs⟩

structure SameOutline (w w' : World) : Prop where
  sessions : w'.sessions.map (fun s => (s.closed, s.arena.isDestroyed, s.agents, s.registries)) =
    w.sessions.map fun s => (s.closed, s.arena.isDestroyed, s.agents, s.registries)
  agents : w'.agents.map (fun a => (a.session, a.registry, a.shutDown)) =
    w.agents.map fun a => (a.session, a.registry, a.shutDown)
  registries : w'.registries.map (fun r => (r.session, r.released)) =
    w.registries.map fun r => (r.session, r.released)

structure Unmoved (w w' : World) : Prop where
  sessions : ∀ (i : Nat) (s : Session), w.sessions[i]? = some s →
    ∃ s' : Session, w'.sessions[i]? = some s' ∧ (s.closed = true → s'.closed = true)
  agents : w'.agents.map (fun a => (a.session, a.registry)) =
    w.agents.map fun a => (a.session, a.registry)
  registries : w'.registries.map Registry.session = w.registries.map Registry.session

variable {w w' : World} {busy : List Nat}

theorem Unmoved.refl (w : World) : Unmoved w w := ⟨fun _ s h => ⟨s,h,id⟩,rfl,rfl⟩

theorem Unmoved.lasting (h : Unmoved w w') : Lasting w w' := by
  refine ⟨h.sessions,?_,?_⟩
  · intro j a ha
    obtain ⟨a',ha',heq⟩ := getElem?_of_map_eq h.agents.symm ha
    exact ⟨a',ha',Prod.mk.inj heq⟩
  · intro j r hr
    exact getElem?_of_map_eq h.registries.symm hr

theorem Unmoved.trans {w₁ w₂ w₃ : World} (h : Unmoved w₁ w₂) (hn : Unmoved w₂ w₃) :
    Unmoved w₁ w₃ :=
  ⟨(h.lasting.trans hn.lasting).sessions,hn.agents.trans h.agents,hn.registries.trans h.registries⟩

theorem Unmoved.paired (h : Unmoved w w') (hw : Orderly busy w) :
    ∀ (j : Nat) (a : Agent), w'.agents[j]? = some a → ∀ k, a.registry = some k →
      ∃ r : Registry, w'.registries[k]? = some r ∧ r.session = a.session := by
  intro j a' ha' k hk
  obtain ⟨a,ha,heq⟩ := getElem?_of_map_eq h.agents ha'
  obtain ⟨hsession,hregistry⟩ := Prod.mk.inj heq
  obtain ⟨r,hr,hrs⟩ := hw.paired j a ha k (hregistry.trans hk)
  obtain ⟨r',hr',hrs'⟩ := h.lasting.registries k r hr
  exact ⟨r',hr',hrs'.trans (hrs.trans hsession)⟩

theorem closed_of_map (h : w'.sessions.map Session.closed = w.sessions.map Session.closed)
    (i : Nat) (s : Session) (hs : w.sessions[i]? = some s) :
    ∃ s' : Session, w'.sessions[i]? = some s' ∧ (s.closed = true → s'.closed = true) := by
  obtain ⟨s',hs',heq⟩ := getElem?_of_map_eq h.symm hs
  exact ⟨s',hs',fun hc => heq.trans hc⟩

theorem SameOutline.unmoved (h : SameOutline w w') : Unmoved w w' := by
  refine ⟨?_,?_,?_⟩
  · exact closed_of_map (map_eq_of_map_eq Prod.fst (fun _ => rfl) h.sessions)
  · exact map_eq_of_map_eq (fun x => (x.1, x.2.1)) (fun _ => rfl) h.agents
  · exact map_eq_of_map_eq Prod.fst (fun _ => rfl) h.registries

theorem arenas_of_map (hw : Orderly busy w)
    (h : w'.sessions.map (fun s => (s.closed, s.arena.isDestroyed)) =
      w.sessions.map fun s => (s.closed, s.arena.isDestroyed)) :
    (∀ (i : Nat) (s : Session), w'.sessions[i]? = some s → i ∉ busy →
      s.arena.isDestroyed = s.closed) ∧
    ∀ i ∈ busy, ∃ s : Session, w'.sessions[i]? = some s ∧ s.closed = true := by
  refine ⟨?_,?_⟩
  · intro i s' hs' hi
    obtain ⟨s,hs,heq⟩ := getElem?_of_map_eq h hs'
    obtain ⟨hclosed,hdestroyed⟩ := Prod.mk.inj heq
    rw [← hclosed,← hdestroyed]
    exact hw.arenas i s hs hi
  · intro i hi
    obtain ⟨s,hs,hclosed⟩ := hw.closing i hi
    obtain ⟨s',hs',heq⟩ := getElem?_of_map_eq h.symm hs
    exact ⟨s',hs',(Prod.mk.inj heq).1.trans hclosed⟩

theorem SameOutline.orderly (h : SameOutline w w') (hw : Orderly busy w) : Orderly busy w' := by
  obtain ⟨harenas,hclosing⟩ := arenas_of_map hw
    (map_eq_of_map_eq (fun x => (x.1, x.2.1)) (fun _ => rfl) h.sessions)
  exact
    { arenas := harenas
      closing := hclosing
      agents := hw.agents.of_map
        (map_eq_of_map_eq (fun x => (x.1, x.2.2.1)) (fun _ => rfl) h.sessions)
        (map_eq_of_map_eq (fun x => (x.1, x.2.2)) (fun _ => rfl) h.agents)
      registries := hw.registries.of_map
        (map_eq_of_map_eq (fun x => (x.1, x.2.2.2)) (fun _ => rfl) h.sessions) h.registries
      paired := h.unmoved.paired hw }

section Closing

theorem updateClient_outline (f : Client → Client) (i : Nat) :
    SameOutline w (w.updateClient f i) := ⟨rfl,rfl,rfl⟩

theorem publish_outline (bus : Option Nat) (e : Event) : SameOutline w (w.publish bus e) := by
  cases bus <;> exact ⟨rfl,rfl,rfl⟩

theorem foldl_updateAgent (f : Agent → Agent) (js : List Nat) (w : World) :
    js.foldl (fun w j => w.updateAgent f j) w =
      { w with agents := js.foldl (fun as j => as.modify j f) w.agents } := by
  induction js generalizing w with
  | nil => rfl
  | cons j js ih => exact ih _

theorem foldl_updateRegistry (f : Registry → Registry) (js : List Nat) (w : World) :
    js.foldl (fun w j => w.updateRegistry f j) w =
      { w with registries := js.foldl (fun rs j => rs.modify j f) w.registries } := by
  induction js generalizing w with
  | nil => rfl
  | cons j js ih => exact ih _

theorem map_foldl_modify {α β : Type} {f : α → α} {g : α → β} (h : ∀ x, g (f x) = g x)
    (js : List Nat) (xs : List α) :
    (js.foldl (fun xs j => xs.modify j f) xs).map g = xs.map g := by
  induction js generalizing xs with
  | nil => rfl
  | cons j js ih => rw [List.foldl_cons,ih,map_modify_of_eq fun x _ => h x]

theorem tearDown_orderly {i : Nat} {s s' : Session} (hw : Orderly (i :: busy) w)
    (hs : w.sessions[i]? = some s') (hclosed : s'.closed = true)
    (ha : ∀ (j : Nat) (a : Agent), w.agents[j]? = some a → (a.session = i ↔ j ∈ s.agents))
    (hr : ∀ (j : Nat) (r : Registry), w.registries[j]? = some r →
      (r.session = i ↔ j ∈ s.registries)) :
    Orderly busy (tearDown s i w) ∧ Unmoved w (tearDown s i w) := by
  have hsame {β : Type} (g : Session → β)
      (hg : ∀ s : Session, g { s with arena := s.arena.destroy } = g s) :
      (tearDown s i w).sessions.map g = w.sessions.map g := by
    simp only [tearDown,foldl_updateAgent,foldl_updateRegistry,updateSession]
    exact map_modify_of_eq fun s _ => hg s
  have hmoved : Unmoved w (tearDown s i w) := by
    refine ⟨?_,?_,?_⟩
    · exact closed_of_map (hsame Session.closed fun _ => rfl)
    · simp only [tearDown,foldl_updateAgent,foldl_updateRegistry,updateSession]
      refine map_foldl_modify ?_ s.agents w.agents
      exact fun _ => rfl
    · simp only [tearDown,foldl_updateAgent,foldl_updateRegistry,updateSession]
      refine map_foldl_modify ?_ s.registries w.registries
      exact fun _ => rfl
  refine ⟨?_,hmoved⟩
  have hget (k : Nat) : (tearDown s i w).sessions[k]? = w.sessions[k]?.map fun s =>
      if i = k then { s with arena := s.arena.destroy } else s := by
    simp only [tearDown,foldl_updateAgent,foldl_updateRegistry,updateSession]
    exact getElem?_modify_map _ i w.sessions k
  have hagents := hw.agents.closed hs hclosed ha (fun a => { a with shutDown := true })
    fun _ => ⟨rfl,rfl,rfl⟩
  have hregistries := hw.registries.closed hs hclosed hr
    (fun r => { r with released := true, entries := [] }) fun _ => ⟨rfl,rfl,rfl⟩
  exact
    { arenas := by
        intro k s₁ hs₁ hk
        rw [hget] at hs₁
        obtain ⟨s₀,hs₀,rfl⟩ := Option.map_eq_some_iff.mp hs₁
        split
        · rename_i hik
          subst hik
          obtain rfl := Option.some.inj (hs.symm.trans hs₀)
          exact hclosed.symm
        · rename_i hik
          exact hw.arenas k s₀ hs₀ (by simp [Ne.symm hik,hk])
      closing := by
        intro k hk
        obtain ⟨s₀,hs₀,hc⟩ := hw.closing k (by simp [hk])
        obtain ⟨s₁,hs₁,heq⟩ := hmoved.sessions k s₀ hs₀
        exact ⟨s₁,hs₁,heq hc⟩
      agents := by
        simpa only [tearDown,foldl_updateAgent,foldl_updateRegistry,updateSession] using
          hagents.of_map (hsame (fun s => (s.closed, s.agents)) fun _ => rfl) rfl
      registries := by
        simpa only [tearDown,foldl_updateAgent,foldl_updateRegistry,updateSession] using
          hregistries.of_map (hsame (fun s => (s.closed, s.registries)) fun _ => rfl) rfl
      paired := hmoved.paired hw }

/-- A way of closing sessions that keeps the world in order, whatever is being closed already. -/
def Closer (close : Nat → World → World) : Prop :=
  ∀ busy w i, Orderly busy w → Orderly busy (close i w) ∧ Unmoved w (close i w)

theorem foldl_orderly {α : Type} (f : World → α → World)
    (hf : ∀ w x, Orderly busy w → Orderly busy (f w x) ∧ Unmoved w (f w x)) (xs : List α)
    (hw : Orderly busy w) : Orderly busy (xs.foldl f w) ∧ Unmoved w (xs.foldl f w) := by
  induction xs generalizing w with
  | nil => exact ⟨hw,.refl w⟩
  | cons x xs ih =>
    obtain ⟨hx,hmoved⟩ := hf w x hw
    obtain ⟨hxs,hmoved'⟩ := ih hx
    exact ⟨hxs,hmoved.trans hmoved'⟩

theorem disconnectBy_orderly {close : Nat → World → World} (hc : Closer close) (client : Nat)
    (hw : Orderly busy w) :
    Orderly busy (disconnectBy close client w) ∧ Unmoved w (disconnectBy close client w) := by
  have hout := updateClient_outline (w := w)
    (fun c => { c with connected := false, log := c.log ++ ["disconnect"] }) client
  obtain ⟨hall,hmoved⟩ := foldl_orderly (fun w i => close i w) (fun w i h => hc busy w i h) _
    (hout.orderly hw)
  exact ⟨hall,hout.unmoved.trans hmoved⟩

def marked (s : Session) : Session :=
  { s with closed := true, clients := [], agents := [], registries := [] }

def alone (close : Nat → World → World) (s : Session) (i : Nat) (w : World) : World :=
  s.clients.foldl (fun w c => disconnectBy close c w) (w.updateSession marked i)

theorem closeBy_open (close : Nat → World → World) {i : Nat} {s : Session}
    (hs : w.sessions[i]? = some s) (hopen : s.closed = false) : closeBy close i w =
      (tearDown s i (alone close s i w)).publish s.bus (closedEvent s (alone close s i w).now) := by
  simp only [closeBy,hs,hopen]
  rfl

theorem marked_orderly (hw : Orderly busy w) {i : Nat} {s : Session}
    (hs : w.sessions[i]? = some s) : Orderly (i :: busy) (w.updateSession marked i) ∧
      Unmoved w (w.updateSession marked i) := by
  have hget (k : Nat) : (w.updateSession marked i).sessions[k]? =
      w.sessions[k]?.map fun s => if i = k then marked s else s :=
    getElem?_modify_map marked i w.sessions k
  have hmoved : Unmoved w (w.updateSession marked i) := by
    refine ⟨?_,rfl,rfl⟩
    intro k s₀ hs₀
    refine ⟨_,by rw [hget,hs₀,Option.map_some],?_⟩
    split
    · exact fun _ => rfl
    · exact id
  refine ⟨?_,hmoved⟩
  exact
    { arenas := by
        intro k s₁ hs₁ hk
        rw [hget] at hs₁
        obtain ⟨s₀,hs₀,rfl⟩ := Option.map_eq_some_iff.mp hs₁
        have hne : i ≠ k := fun heq => hk (by simp [heq])
        rw [if_neg hne]
        exact hw.arenas k s₀ hs₀ fun hm => hk (by simp [hm])
      closing := by
        intro k hk
        by_cases hik : i = k
        · subst hik
          exact ⟨_,by rw [hget,hs,Option.map_some,if_pos rfl],rfl⟩
        · obtain ⟨s₀,hs₀,hclosed⟩ := hw.closing k (by simpa [Ne.symm hik] using hk)
          obtain ⟨s₁,hs₁,heq⟩ := hmoved.sessions k s₀ hs₀
          exact ⟨s₁,hs₁,heq hclosed⟩
      agents := hw.agents.closing fun _ => rfl
      registries := hw.registries.closing fun _ => rfl
      paired := hmoved.paired hw }

theorem alone_orderly {close : Nat → World → World} (hc : Closer close) (hw : Orderly busy w)
    {i : Nat} {s : Session} (hs : w.sessions[i]? = some s) :
    Orderly (i :: busy) (alone close s i w) ∧ Unmoved w (alone close s i w) := by
  obtain ⟨horder,hmoved⟩ := marked_orderly hw hs
  obtain ⟨horder',hmoved'⟩ := foldl_orderly (fun w c => disconnectBy close c w)
    (fun w c h => disconnectBy_orderly hc c h) s.clients horder
  exact ⟨horder',hmoved.trans hmoved'⟩

/-- A session whose clients were disconnected: it counts as closed, and all that was made under it is
still what it tracked. -/
structure Ripe (busy : List Nat) (s : Session) (i : Nat) (w : World) : Prop where
  orderly : Orderly (i :: busy) w
  closed : ∃ s' : Session, w.sessions[i]? = some s' ∧ s'.closed = true
  agents : ∀ (j : Nat) (a : Agent), w.agents[j]? = some a → (a.session = i ↔ j ∈ s.agents)
  registries : ∀ (j : Nat) (r : Registry), w.registries[j]? = some r →
    (r.session = i ↔ j ∈ s.registries)

theorem not_busy (hw : Orderly busy w) {i : Nat} {s : Session} (hs : w.sessions[i]? = some s)
    (hopen : s.closed = false) : i ∉ busy := by
  intro hi
  obtain ⟨s',hs',hclosed⟩ := hw.closing i hi
  obtain rfl := Option.some.inj (hs.symm.trans hs')
  rw [hopen] at hclosed
  contradiction

theorem ripe_of_unmoved (hw : Orderly busy w) {i : Nat} {s : Session}
    (hs : w.sessions[i]? = some s) (hopen : s.closed = false) (h : Orderly (i :: busy) w')
    (hmoved : Unmoved w w') : Ripe busy s i w' where
  orderly := h
  closed := h.closing i (by simp)
  agents := by
    intro j a ha
    obtain ⟨a₀,ha₀,heq⟩ := getElem?_of_map_eq hmoved.agents ha
    rw [← (Prod.mk.inj heq).1]
    exact hw.agents.owner_iff hs (not_busy hw hs hopen) hopen ha₀
  registries := by
    intro j r hr
    obtain ⟨r₀,hr₀,heq⟩ := getElem?_of_map_eq hmoved.registries hr
    rw [← heq]
    exact hw.registries.owner_iff hs (not_busy hw hs hopen) hopen hr₀

/-- From the start of its closing on a session counts as closed, and what it tracked is kept in
mind until all of it is taken down. -/
theorem closeBy_spec {close : Nat → World → World} (hc : Closer close) (hw : Orderly busy w)
    (i : Nat) : Orderly busy (closeBy close i w) ∧ Unmoved w (closeBy close i w) ∧
      ∀ s : Session, w.sessions[i]? = some s →
        ∃ s' : Session, (closeBy close i w).sessions[i]? = some s' ∧ s'.closed = true := by
  cases hs : w.sessions[i]? with
  | none =>
    have hsame : closeBy close i w = w := by simp only [closeBy,hs]
    rw [hsame]
    exact ⟨hw,.refl w,fun s hs => nomatch hs⟩
  | some s =>
  cases hopen : s.closed with
  | true =>
    have hsame : closeBy close i w = w := by simp only [closeBy,hs,hopen,if_true]
    rw [hsame]
    refine ⟨hw,.refl w,?_⟩
    intro s' hs'
    exact ⟨s,hs,hopen⟩
  | false =>
  obtain ⟨horder₂,hmoved⟩ := alone_orderly hc hw hs
  have hripe := ripe_of_unmoved hw hs hopen horder₂ hmoved
  rw [closeBy_open close hs hopen]
  generalize alone close s i w = w₂ at horder₂ hmoved hripe ⊢
  obtain ⟨s₂,hs₂,hclosed₂⟩ := hripe.closed
  obtain ⟨horder₃,hmoved₃⟩ := tearDown_orderly horder₂ hs₂ hclosed₂ hripe.agents hripe.registries
  have hout := publish_outline (w := tearDown s i w₂) s.bus (closedEvent s w₂.now)
  refine ⟨hout.orderly horder₃,(hmoved.trans hmoved₃).trans hout.unmoved,?_⟩
  intro s' hs'
  obtain ⟨s₃,hs₃,hclosed⟩ := (hmoved₃.trans hout.unmoved).sessions i s₂ hs₂
  exact ⟨s₃,hs₃,hclosed hclosed₂⟩

theorem closeBy_orderly {close : Nat → World → World} (hc : Closer close) :
    Closer (closeBy close) := by
  intro busy w i hw
  obtain ⟨horder,hmoved,-⟩ := closeBy_spec hc hw i
  exact ⟨horder,hmoved⟩

theorem closeWithin_orderly (depth : Nat) : Closer (closeWithin depth) := by
  induction depth with
  | zero => exact fun busy w i hw => ⟨hw,.refl w⟩
  | succ depth ih => exact closeBy_orderly ih

theorem close_orderly : Closer close := fun busy w i hw =>
  closeWithin_orderly w.sessions.length busy w i hw

theorem close_closes (hw : Orderly busy w) {i : Nat} {s : Session} (hs : w.sessions[i]? = some s) :
    ∃ s' : Session, (w.close i).sessions[i]? = some s' ∧ s'.closed = true := by
  have hlt : i < w.sessions.length := (List.getElem?_eq_some_iff.mp hs).1
  obtain ⟨n,hn⟩ := Nat.exists_eq_succ_of_ne_zero (Nat.ne_of_gt (Nat.zero_lt_of_lt hlt))
  rw [close,hn]
  exact (closeBy_spec (closeWithin_orderly n) hw i).2.2 s hs

end Closing

end ReasonAct.World
