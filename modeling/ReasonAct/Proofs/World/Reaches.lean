import Mathlib.Logic.Relation
import ReasonAct.Proofs.World.Orderly
import ReasonAct.World.Agent
set_option autoImplicit false

namespace ReasonAct.World

/-- One public operation. Each of them can be refused, and then nothing is done. -/
inductive Step (w : World) : World → Prop where
  | openSession (label : String) (config : Config) (bus : Option Nat) :
      Step w (w.openSession label config bus).2
  | createRegistry (session : Nat) : Step w (w.createRegistry session).2
  | createAgent (session : Nat) (o : AgentOptions) (route : Route)
      (made : ∀ r, o.registry = some r → r < w.registries.length) :
      Step w (w.createAgent session o route).2
  | addTool (registry : Nat) (tool : Tool) : Step w (w.addTool registry tool).2
  | trackAgent {w' : World} (session agent : Nat) (made : agent < w.agents.length)
      (h : w.trackAgent session agent = .ok w') : Step w w'
  | trackRegistry {w' : World} (session registry : Nat) (made : registry < w.registries.length)
      (h : w.trackRegistry session registry = .ok w') : Step w w'
  | trackClient {w' : World} (session client : Nat) (h : w.trackClient session client = .ok w') :
      Step w w'
  | close (session : Nat) : Step w (w.close session)
  | count (agent : Nat) (n : UInt32) :
      Step w (w.updateAgent (fun a => { a with iterations := n }) agent)
  /-- Memories, models, clients, buses, files, the host and the clock. -/
  | elsewhere {w' : World} (sessions : w'.sessions = w.sessions) (agents : w'.agents = w.agents)
      (registries : w'.registries = w.registries) (arenas : w'.nextArena = w.nextArena) : Step w w'

abbrev Reaches : World → World → Prop := Relation.ReflTransGen Step

variable {w w' : World}

section Steps

theorem openSession?_ok {i : Nat} {s : Session} (h : w.openSession? i = .ok s) :
    w.sessions[i]? = some s ∧ s.closed = false := by
  unfold openSession? at h
  split at h
  · contradiction
  · rename_i s' hs
    split at h
    · contradiction
    · rename_i hopen
      obtain rfl := Except.ok.inj h
      exact ⟨hs,by simpa using hopen⟩

theorem openSession_orderly (hw : Orderly [] w) (label : String) (config : Config)
    (bus : Option Nat) : Orderly [] (w.openSession label config bus).2 ∧
      Lasting w (w.openSession label config bus).2 := by
  unfold openSession
  split
  · exact ⟨hw,.refl w⟩
  rename_i arena harena
  obtain ⟨a,-,rfl⟩ := Option.map_eq_some_iff.mp harena
  refine ⟨?_,?_⟩
  · exact
      { arenas := by
          intro i s hs _
          rcases getElem?_concat_cases hs with hs | ⟨-,rfl⟩
          · exact hw.arenas i s hs (by simp)
          · rfl
        closing := by simp
        agents := hw.agents.opened rfl
        registries := hw.registries.opened rfl
        paired := hw.paired }
  · refine ⟨?_,(Lasting.refl w).agents,(Lasting.refl w).registries⟩
    intro i s hs
    have hlt := (List.getElem?_eq_some_iff.mp hs).1
    exact ⟨s,(List.getElem?_append_left hlt).trans hs,id⟩

theorem checkOwner_ok {i owner : Nat} {kind : String} (h : w.checkOwner i owner kind = .ok ()) :
    owner = i := by
  unfold checkOwner at h
  split at h
  · assumption
  · contradiction

theorem agent_tracked (hw : Orderly [] w) {i j : Nat} {s : Session} {a : Agent}
    (hs : w.sessions[i]? = some s) (hopen : s.closed = false) {agents : List Agent}
    (ha : agents[j]? = some a) (hsession : a.session = i)
    (hold : ∀ (k : Nat) (b : Agent), w.agents[k]? = some b → agents[k]? = some b)
    (hnew : ∀ (k : Nat) (b : Agent), agents[k]? = some b →
      w.agents[k]? = some b ∨ k = j ∧ b.shutDown = false)
    (hpaired : ∀ k, a.registry = some k →
      ∃ r : Registry, w.registries[k]? = some r ∧ r.session = a.session) :
    let made : World := { w with
      sessions := w.sessions.modify i fun s => { s with agents := track j s.agents }
      agents := agents }
    Orderly [] made ∧ Lasting w made := by
  intro made
  have hsame {β : Type} (g : Session → β)
      (hg : ∀ s : Session, g { s with agents := track j s.agents } = g s) :
      made.sessions.map g = w.sessions.map g := map_modify_of_eq fun s _ => hg s
  have harenas : made.sessions.map (fun s => (s.closed, s.arena.isDestroyed)) = _ :=
    hsame _ fun _ => rfl
  obtain ⟨harenas,hclosing⟩ := arenas_of_map hw harenas
  refine ⟨?_,?_⟩
  · exact
      { arenas := harenas
        closing := hclosing
        agents := hw.agents.tracking hs hopen (fun _ => ⟨rfl,rfl⟩) ha hsession hold hnew
        registries := hw.registries.of_map (hsame _ fun _ => rfl) rfl
        paired := by
          intro k b hb r hr
          rcases hnew k b hb with hb' | ⟨rfl,-⟩
          · exact hw.paired k b hb' r hr
          · obtain rfl := Option.some.inj (ha.symm.trans hb)
            exact hpaired r hr }
  · exact ⟨closed_of_map (hsame Session.closed fun _ => rfl),fun k b hb => ⟨b,hold k b hb,rfl,rfl⟩,
      (Lasting.refl w).registries⟩

theorem registry_tracked (hw : Orderly [] w) {i j : Nat} {s : Session} {r : Registry}
    (hs : w.sessions[i]? = some s) (hopen : s.closed = false) {registries : List Registry}
    (hr : registries[j]? = some r) (hsession : r.session = i)
    (hold : ∀ (k : Nat) (q : Registry), w.registries[k]? = some q → registries[k]? = some q)
    (hnew : ∀ (k : Nat) (q : Registry), registries[k]? = some q →
      w.registries[k]? = some q ∨ k = j ∧ q.released = false) :
    let made : World := { w with
      sessions := w.sessions.modify i fun s => { s with registries := track j s.registries }
      registries := registries }
    Orderly [] made ∧ Lasting w made := by
  intro made
  have hsame {β : Type} (g : Session → β)
      (hg : ∀ s : Session, g { s with registries := track j s.registries } = g s) :
      made.sessions.map g = w.sessions.map g := map_modify_of_eq fun s _ => hg s
  have harenas : made.sessions.map (fun s => (s.closed, s.arena.isDestroyed)) = _ :=
    hsame _ fun _ => rfl
  obtain ⟨harenas,hclosing⟩ := arenas_of_map hw harenas
  refine ⟨?_,?_⟩
  · exact
      { arenas := harenas
        closing := hclosing
        agents := hw.agents.of_map (hsame _ fun _ => rfl) rfl
        registries := hw.registries.tracking hs hopen (fun _ => ⟨rfl,rfl⟩) hr hsession hold hnew
        paired := by
          intro k a ha q hq
          obtain ⟨r,hr,hrs⟩ := hw.paired k a ha q hq
          exact ⟨r,hold q r hr,hrs⟩ }
  · exact ⟨closed_of_map (hsame Session.closed fun _ => rfl),(Lasting.refl w).agents,
      fun k q hq => ⟨q,hold k q hq,rfl⟩⟩

theorem trackAgent_ok {i j : Nat} (h : w.trackAgent i j = .ok w') :
    (∃ s, w.openSession? i = .ok s) ∧ ((w.agents[j]?.map Agent.session).getD i) = i ∧
      w' = w.updateSession (fun s => { s with agents := track j s.agents }) i := by
  unfold trackAgent at h
  cases hs : w.openSession? i with
  | error e => simp [hs,bind,Except.bind] at h
  | ok s =>
    cases hc : w.checkOwner i ((w.agents[j]?.map Agent.session).getD i) "agent" with
    | error e => simp [hs,hc,bind,Except.bind] at h
    | ok u =>
      exact ⟨⟨s,rfl⟩,checkOwner_ok hc,by
        simpa [hs,hc,bind,Except.bind,pure,Except.pure] using h.symm⟩

theorem trackRegistry_ok {i j : Nat} (h : w.trackRegistry i j = .ok w') :
    (∃ s, w.openSession? i = .ok s) ∧ ((w.registries[j]?.map Registry.session).getD i) = i ∧
      w' = w.updateSession (fun s => { s with registries := track j s.registries }) i := by
  unfold trackRegistry at h
  cases hs : w.openSession? i with
  | error e => simp [hs,bind,Except.bind] at h
  | ok s =>
    cases hc : w.checkOwner i ((w.registries[j]?.map Registry.session).getD i) "registry" with
    | error e => simp [hs,hc,bind,Except.bind] at h
    | ok u =>
      exact ⟨⟨s,rfl⟩,checkOwner_ok hc,by
        simpa [hs,hc,bind,Except.bind,pure,Except.pure] using h.symm⟩

theorem trackClient_ok {i j : Nat} (h : w.trackClient i j = .ok w') :
    (∃ s, w.openSession? i = .ok s) ∧
      w' = w.updateSession (fun s => { s with clients := track j s.clients }) i := by
  unfold trackClient at h
  cases hs : w.openSession? i with
  | error e => simp [hs,bind,Except.bind] at h
  | ok s => exact ⟨⟨s,rfl⟩,by simpa [hs,bind,Except.bind,pure,Except.pure] using h.symm⟩

theorem trackAgent_orderly (hw : Orderly [] w) {i j : Nat} (hj : j < w.agents.length)
    (h : w.trackAgent i j = .ok w') : Orderly [] w' ∧ Lasting w w' := by
  obtain ⟨⟨s,hs⟩,hsession,rfl⟩ := trackAgent_ok h
  obtain ⟨hs,hopen⟩ := openSession?_ok hs
  have hat := List.getElem?_eq_getElem hj
  rw [hat] at hsession
  exact agent_tracked hw hs hopen hat hsession (fun _ _ h => h) (fun _ _ h => .inl h)
    (hw.paired j _ hat)

theorem trackRegistry_orderly (hw : Orderly [] w) {i j : Nat} (hj : j < w.registries.length)
    (h : w.trackRegistry i j = .ok w') : Orderly [] w' ∧ Lasting w w' := by
  obtain ⟨⟨s,hs⟩,hsession,rfl⟩ := trackRegistry_ok h
  obtain ⟨hs,hopen⟩ := openSession?_ok hs
  have hat := List.getElem?_eq_getElem hj
  rw [hat] at hsession
  exact registry_tracked hw hs hopen hat hsession (fun _ _ h => h) (fun _ _ h => .inl h)

theorem getElem?_concat_of_some {α : Type} {xs : List α} {x y : α} {i : Nat}
    (h : xs[i]? = some x) : (xs ++ [y])[i]? = some x :=
  (List.getElem?_append_left (List.getElem?_eq_some_iff.mp h).1).trans h

theorem createRegistry_orderly (hw : Orderly [] w) (session : Nat) :
    Orderly [] (w.createRegistry session).2 ∧ Lasting w (w.createRegistry session).2 := by
  unfold createRegistry
  split
  · exact ⟨hw,.refl w⟩
  rename_i s hs
  obtain ⟨hat,hopen⟩ := openSession?_ok hs
  have htrack : World.trackRegistry session w.registries.length
      { w with registries := w.registries ++ [⟨session, [], false⟩] } =
        .ok (World.updateSession (fun s =>
          { s with registries := track w.registries.length s.registries }) session
            { w with registries := w.registries ++ [⟨session, [], false⟩] }) := by
    have hs' : openSession? { w with registries := w.registries ++ [⟨session, [], false⟩] } session =
        .ok s := hs
    simp [trackRegistry,hs',checkOwner,bind,Except.bind,pure,Except.pure]
  dsimp only
  rw [htrack]
  refine registry_tracked hw hat hopen List.getElem?_concat_length rfl
    (fun _ _ h => getElem?_concat_of_some h) ?_
  intro k q hq
  rcases getElem?_concat_cases hq with hq | ⟨rfl,rfl⟩
  · exact .inl hq
  · exact .inr ⟨rfl,rfl⟩

theorem createAgent_orderly (hw : Orderly [] w) (session : Nat) (o : AgentOptions) (route : Route)
    (hmade : ∀ r, o.registry = some r → r < w.registries.length) :
    Orderly [] (w.createAgent session o route).2 ∧
      Lasting w (w.createAgent session o route).2 := by
  unfold createAgent
  split
  · exact ⟨hw,.refl w⟩
  rename_i s hs
  split
  · exact ⟨hw,.refl w⟩
  split
  · exact ⟨hw,.refl w⟩
  split
  · exact ⟨hw,.refl w⟩
  rename_i howner
  obtain ⟨hat,hopen⟩ := openSession?_ok hs
  dsimp only
  generalize hnew : Agent.mk o.name session s.workingDir route o.registry o.memory o.maxIterations
    o.timeoutMs o.instructions (o.bus.or s.bus) o.userData 0 false = a
  have hsession : a.session = session := by rw [← hnew]
  have htrack : World.trackAgent session w.agents.length { w with agents := w.agents ++ [a] } =
      .ok (World.updateSession (fun s => { s with agents := track w.agents.length s.agents }) session
        { w with agents := w.agents ++ [a] }) := by
    have hs' : openSession? { w with agents := w.agents ++ [a] } session = .ok s := hs
    simp [trackAgent,hs',checkOwner,hsession,bind,Except.bind,pure,Except.pure]
  rw [htrack]
  refine agent_tracked hw hat hopen List.getElem?_concat_length hsession
    (fun _ _ h => getElem?_concat_of_some h) ?_ ?_
  · intro k b hb
    rcases getElem?_concat_cases hb with hb | ⟨rfl,rfl⟩
    · exact .inl hb
    · exact .inr ⟨rfl,by rw [← hnew]⟩
  · intro k hk
    have hk : o.registry = some k := by rw [← hnew] at hk; exact hk
    have hlt := hmade k hk
    have hr := List.getElem?_eq_getElem hlt
    refine ⟨w.registries[k],hr,?_⟩
    rw [hsession]
    simpa [hk,hr] using howner

theorem trackClient_outline {i j : Nat} (h : w.trackClient i j = .ok w') : SameOutline w w' := by
  obtain ⟨-,rfl⟩ := trackClient_ok h
  exact ⟨map_modify_of_eq fun _ _ => rfl,rfl,rfl⟩

theorem copyIn_destroyed {host : Arena.Host} {text : String} {a a' : SharedArena}
    {h : Arena.Handle} (hc : copyIn host text a = .ok (h, a')) : a'.isDestroyed = a.isDestroyed := by
  unfold copyIn at hc
  split at hc
  · rename_i r hr
    obtain rfl := Except.ok.inj hc
    obtain ⟨b,hb,hr⟩ := Option.bind_eq_some_iff.mp hr
    obtain ⟨⟨k,b'⟩,-,hr⟩ := Option.bind_eq_some_iff.mp hr
    obtain ⟨-,rfl⟩ := Prod.mk.inj (Option.some.inj hr)
    simp [SharedArena.isDestroyed,hb]
  · split at hc <;> contradiction

theorem copyEntry_destroyed (host : Arena.Host) (tool : Tool) (schema : String) (a : SharedArena) :
    (copyEntry host tool schema a).2.isDestroyed = a.isDestroyed := by
  unfold copyEntry
  split
  · rfl
  rename_i name a₁ h₁
  have hd₁ := copyIn_destroyed h₁
  split
  · exact hd₁
  rename_i description a₂ h₂
  have hd₂ := copyIn_destroyed h₂
  split
  · exact hd₂.trans hd₁
  · rename_i schema a₃ h₃
    exact (copyIn_destroyed h₃).trans (hd₂.trans hd₁)

theorem live?_ok {id : Nat} {r : Registry} {a : SharedArena} (h : w.live? id = .ok (r, a)) :
    w.registries[id]? = some r ∧ ∃ s : Session, w.sessions[r.session]? = some s ∧ s.arena = a := by
  unfold live? at h
  split at h
  · contradiction
  rename_i r' hr
  split at h
  · contradiction
  rename_i a' ha
  split at h
  · contradiction
  obtain ⟨rfl,rfl⟩ := Prod.mk.inj (Except.ok.inj h)
  exact ⟨hr,Option.map_eq_some_iff.mp ha⟩

theorem addTool_outline (id : Nat) (tool : Tool) : SameOutline w (w.addTool id tool).2 := by
  unfold addTool
  split
  · exact ⟨rfl,rfl,rfl⟩
  rename_i r a hlive
  obtain ⟨-,s,hs,rfl⟩ := live?_ok hlive
  split
  · exact ⟨rfl,rfl,rfl⟩
  split
  · exact ⟨rfl,rfl,rfl⟩
  split
  · exact ⟨rfl,rfl,rfl⟩
  rename_i schema _ _
  have hd := copyEntry_destroyed w.host tool schema s.arena
  have hout : SameOutline w
      (w.updateSession (fun s' => { s' with arena := (copyEntry w.host tool schema s.arena).2 })
        r.session) := by
    refine ⟨map_modify_of_eq ?_,rfl,rfl⟩
    intro s' hs'
    obtain rfl := Option.some.inj (hs.symm.trans hs')
    simp [hd]
  dsimp only
  split
  · exact hout
  split
  · exact ⟨hout.sessions,hout.agents,map_modify_of_eq fun _ _ => rfl⟩
  · exact hout

theorem step_orderly (h : Step w w') (hw : Orderly [] w) : Orderly [] w' ∧ Lasting w w' := by
  have outline {v : World} (h : SameOutline w v) : Orderly [] v ∧ Lasting w v :=
    ⟨h.orderly hw,h.unmoved.lasting⟩
  cases h with
  | openSession label config bus => exact openSession_orderly hw label config bus
  | createRegistry session => exact createRegistry_orderly hw session
  | createAgent session o route made => exact createAgent_orderly hw session o route made
  | addTool registry tool => exact outline (addTool_outline registry tool)
  | trackAgent session agent made h => exact trackAgent_orderly hw made h
  | trackRegistry session registry made h => exact trackRegistry_orderly hw made h
  | trackClient session client h => exact outline (trackClient_outline h)
  | close session =>
    obtain ⟨horder,hmoved⟩ := close_orderly [] w session hw
    exact ⟨horder,hmoved.lasting⟩
  | count agent n => exact outline ⟨rfl,map_modify_of_eq fun _ _ => rfl,rfl⟩
  | elsewhere sessions agents registries arenas =>
    exact outline ⟨by rw [sessions],by rw [agents],by rw [registries]⟩

theorem reaches_orderly (h : Reaches w w') (hw : Orderly [] w) : Orderly [] w' ∧ Lasting w w' := by
  induction h with
  | refl => exact ⟨hw,.refl w⟩
  | tail _ hstep ih =>
    obtain ⟨horder,hlast⟩ := step_orderly hstep ih.1
    exact ⟨horder,ih.2.trans hlast⟩

end Steps
end ReasonAct.World
