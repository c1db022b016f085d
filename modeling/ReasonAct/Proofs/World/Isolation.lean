import ReasonAct.Proofs.Run.Effects
import ReasonAct.Proofs.World.Admission
set_option autoImplicit false

namespace ReasonAct.World

variable {w w' : World} {k : Nat}

section Untouched

theorem untouched_elsewhere (sessions : w'.sessions = w.sessions) (agents : w'.agents = w.agents)
    (registries : w'.registries = w.registries) : Untouched k w w' :=
  ⟨by rw [sessions],fun _ _ h _ => agents ▸ h,fun _ _ h _ => registries ▸ h⟩

theorem untouched_updateSession (f : Session → Session) {i : Nat} (h : i ≠ k) :
    Untouched k w (w.updateSession f i) :=
  ⟨by simp [updateSession,h],fun _ _ h _ => h,fun _ _ h _ => h⟩

theorem untouched_updateAgent (f : Agent → Agent) {id : Nat}
    (h : ∀ a, w.agents[id]? = some a → a.session ≠ k) : Untouched k w (w.updateAgent f id) := by
  refine ⟨rfl,?_,fun _ _ h _ => h⟩
  intro j a ha hak
  have hne : id ≠ j := by
    rintro rfl
    exact h a ha hak
  simp [updateAgent,hne,ha]

def Outside (k id : Nat) (w : World) : Prop :=
  ∀ r, w.registries[id]? = some r → r.session ≠ k

theorem Outside.unmoved {id : Nat} (h : Outside k id w) (hmoved : Unmoved w w') :
    Outside k id w' := by
  intro r' hr'
  obtain ⟨r,hr,heq⟩ := getElem?_of_map_eq hmoved.registries hr'
  exact heq ▸ h r hr

theorem untouched_updateRegistry (f : Registry → Registry) {id : Nat} (h : Outside k id w) :
    Untouched k w (w.updateRegistry f id) := by
  refine ⟨rfl,fun _ _ h _ => h,?_⟩
  intro j r hr hrk
  have hne : id ≠ j := by
    rintro rfl
    exact h r hr hrk
  simp [updateRegistry,hne,hr]

theorem untouched_openSession (label : String) (config : Config) (bus : Option Nat)
    (h : k ≠ w.sessions.length) : Untouched k w (w.openSession label config bus).2 := by
  unfold openSession
  split
  · exact .refl k w
  · refine ⟨?_,fun _ _ h _ => h,fun _ _ h _ => h⟩
    dsimp only
    rw [List.getElem?_append]
    split
    · rfl
    · rename_i hlt
      rw [List.getElem?_singleton,if_neg (by omega),List.getElem?_eq_none (by omega)]

theorem Admission.untouched_ask (x : Admission) (h : x.session ≠ k) :
    Untouched k w (x.ask w).2 := by
  rcases x.ask_cases w with ⟨e,he⟩ | ⟨s,-,-,-,hask⟩
  · rw [he]
    exact .refl k w
  have hmade : Untouched k w (x.made s w) := by
    cases x with
    | createAgent i o route =>
      exact ⟨rfl,fun _ _ ha _ => getElem?_concat_of_some ha,fun _ _ hr _ => hr⟩
    | createRegistry i => exact ⟨rfl,fun _ _ ha _ => ha,fun _ _ hr _ => getElem?_concat_of_some hr⟩
    | addAgent i agent => exact .refl k w
    | addRegistry i registry => exact .refl k w
    | addClient i client => exact .refl k w
  rw [hask]
  exact hmade.trans (untouched_updateSession _ h)

theorem untouched_addTool {id : Nat} (tool : Tool) (h : Outside k id w) :
    Untouched k w (w.addTool id tool).2 := by
  unfold addTool
  split
  · exact .refl k w
  rename_i r a hlive
  split
  · exact .refl k w
  split
  · exact .refl k w
  split
  · exact .refl k w
  have harena (f : Session → Session) : Untouched k w (w.updateSession f r.session) :=
    untouched_updateSession f (h r (live?_ok hlive).1)
  dsimp only
  split
  · exact harena _
  split
  · exact (harena _).trans (untouched_updateRegistry _ h)
  · exact harena _

theorem untouched_step {id : Nat} (tool : Tool) {v : World} (h : Untouched k w v ∧ Outside k id v) :
    Untouched k w (v.addTool id tool).2 ∧ Outside k id (v.addTool id tool).2 :=
  ⟨h.1.trans (untouched_addTool tool h.2),h.2.unmoved (addTool_outline id tool).unmoved⟩

end Untouched

section Closing

/-- What was closed stays so, and a session that is closed no more than it was is not touched. -/
structure Spared (k : Nat) (w w' : World) : Prop where
  lasting : w.isClosed k = true → w'.isClosed k = true
  untouched : w'.isClosed k = w.isClosed k → Untouched k w w'

theorem isClosed_of_getElem? (h : w'.sessions[k]? = w.sessions[k]?) :
    w'.isClosed k = w.isClosed k := by simp [isClosed,h]

/-- A closing touches those sessions that it closes, and no others. -/
theorem spared_closing : Closing fun _ w w' => ∀ k, Spared k w w' where
  refl _ _ := fun k => ⟨id,fun _ => .refl k _⟩
  trans := by
    intro busy w₁ w₂ w₃ h hn k
    refine ⟨fun hc => (hn k).lasting ((h k).lasting hc),?_⟩
    intro hsame
    have hmid : w₂.isClosed k = w₁.isClosed k := by
      cases hc : w₁.isClosed k with
      | true => exact (h k).lasting hc
      | false =>
        refine Bool.eq_false_iff.mpr fun hc' => ?_
        rw [(hn k).lasting hc',hc] at hsame
        contradiction
    exact ((h k).untouched hmid).trans ((hn k).untouched (hsame.trans hmid.symm))
  client _ _ _ _ := fun _ => ⟨id,fun _ => untouched_elsewhere rfl rfl rfl⟩
  whole := by
    intro busy w i s w' hw hs hopen hripe h k
    by_cases hik : i = k
    · subst hik
      obtain ⟨s',hs',hclosed⟩ := hripe.closed
      have hafter : ((tearDown s i w').publish s.bus (closedEvent s w'.now)).isClosed i = true := by
        simp [isClosed,getElem?_sessions_tearDown,hs',hclosed]
      refine ⟨fun _ => hafter,?_⟩
      intro hsame
      rw [hafter] at hsame
      simp [isClosed,hs,hopen] at hsame
    · have hbefore : (w.updateSession marked i).isClosed k = w.isClosed k :=
        isClosed_of_getElem? (untouched_updateSession marked hik).session
      have hafter : ((tearDown s i w').publish s.bus (closedEvent s w'.now)).isClosed k =
          w'.isClosed k :=
        isClosed_of_getElem? (by simp [getElem?_sessions_tearDown,hik])
      refine ⟨?_,?_⟩
      · rw [hafter,← hbefore]
        exact (h k).lasting
      · intro hsame
        exact ((h k).untouched (by rw [hbefore,← hsame,hafter])).tornDown hripe hik _ _

/-- The session `i` tracks a client that closes the session `j` when it is disconnected. -/
def Triggers (w : World) (i j : Nat) : Prop :=
  ∃ (s : Session) (c : Nat) (client : Client), w.sessions[i]? = some s ∧ c ∈ s.clients ∧
    w.clients[c]? = some client ∧ j ∈ client.closes

/-- The session `k` is as closed as it was in `w`, and no more clients are to be disconnected. -/
structure Stays (k : Nat) (w v : World) : Prop where
  closed : v.isClosed k = w.isClosed k
  clients : ∀ (i : Nat) (s' : Session), v.sessions[i]? = some s' →
    ∃ s : Session, w.sessions[i]? = some s ∧ ∀ c ∈ s'.clients, c ∈ s.clients
  closes : v.clients.map Client.closes = w.clients.map Client.closes

theorem clients_tearDown (s : Session) (i : Nat) (bus : Option Nat) (e : Event) (w : World) :
    ((tearDown s i w).publish bus e).clients = w.clients := by
  cases bus <;> simp [publish,tearDown,foldl_updateAgent,foldl_updateRegistry,updateSession]

section Stays

variable {v : World} (h : Stays k w v)

include h

theorem Stays.modified {i : Nat} (hi : i ≠ k) {f : Session → Session} {v' : World}
    (hf : ∀ s, ∀ c ∈ (f s).clients, c ∈ s.clients) (hs : v'.sessions = v.sessions.modify i f)
    (hc : v'.clients = v.clients) : Stays k w v' := by
  refine ⟨(isClosed_of_getElem? (by simp [hs,hi])).trans h.closed,?_,hc ▸ h.closes⟩
  intro j s' hs'
  rw [hs,getElem?_modify_map] at hs'
  obtain ⟨s₀,hs₀,rfl⟩ := Option.map_eq_some_iff.mp hs'
  obtain ⟨s,hat,hsub⟩ := h.clients j s₀ hs₀
  refine ⟨s,hat,fun c hmem => hsub c ?_⟩
  split at hmem
  · exact hf s₀ c hmem
  · exact hmem

theorem Stays.triggers {i j c : Nat} {s : Session} (hs : w.sessions[i]? = some s)
    (hc : c ∈ s.clients) (hj : j ∈ (v.clients[c]?.map Client.closes).getD []) : Triggers w i j := by
  rw [← List.getElem?_map,h.closes,List.getElem?_map] at hj
  cases hclient : w.clients[c]? with
  | none => simp [hclient] at hj
  | some client => exact ⟨s,c,client,hs,hc,hclient,by simpa [hclient] using hj⟩

/-- A session is closed when it is asked to, or when a client is disconnected that closes it. -/
theorem Stays.closeWithin (depth : Nat) {i : Nat}
    (hi : ¬ Relation.ReflTransGen (Triggers w) i k) : Stays k w (closeWithin depth i v) := by
  induction depth generalizing i v with
  | zero => exact h
  | succ depth ih =>
    rcases v.open_or_not i with ⟨s',hs',hopen⟩ | hnot
    · have hne : i ≠ k := fun heq => hi (heq ▸ .refl)
      obtain ⟨s,hs,hsub⟩ := h.clients i s' hs'
      have hdisconnect (u : World) (hu : Stays k w u) (c : Nat) (hc : c ∈ s'.clients) :
          Stays k w (disconnectBy (World.closeWithin depth) c u) := by
        have hmarked : Stays k w (u.updateClient
            (fun c => { c with connected := false, log := c.log ++ ["disconnect"] }) c) :=
          ⟨hu.closed,hu.clients,Eq.trans (map_modify_of_eq (by simp)) hu.closes⟩
        refine List.foldlRecOn _ _ hmarked fun x hx j hj => ih hx fun hjk => ?_
        exact hi (.head (hmarked.triggers hs (hsub c hc) hj) hjk)
      have hmarked : Stays k w (v.updateSession marked i) :=
        h.modified hne (by simp [marked]) rfl rfl
      have halone : Stays k w (alone (World.closeWithin depth) s' i v) :=
        List.foldlRecOn _ _ hmarked fun u hu c hc => hdisconnect u hu c hc
      unfold World.closeWithin
      rw [closeBy_open _ hs' hopen]
      refine halone.modified hne (f := fun s => { s with arena := s.arena.destroy })
        (fun _ _ => id) ?_ (clients_tearDown _ _ _ _ _)
      rw [sessions_publish]
      simp only [tearDown,foldl_updateAgent,foldl_updateRegistry,updateSession]
    · rw [closeWithin_of_not_open _ hnot]
      exact h

end Stays

theorem untouched_close (hw : Orderly [] w) {i : Nat}
    (hi : ¬ Relation.ReflTransGen (Triggers w) i k) : Untouched k w (w.close i) := by
  have hstays : Stays k w w := ⟨rfl,fun _ s hs => ⟨s,hs,fun _ => id⟩,rfl⟩
  exact (spared_closing.close hw i k).untouched (hstays.closeWithin w.sessions.length hi).closed

end Closing

section Runs

variable {code : Code}

theorem untouched_callBy {id : Nat} {name arguments : String} {ctx : ToolContext}
    (h : ∀ tool, w.handler? id name = some tool →
      Untouched k w (code.execute tool ctx arguments w).2) :
    Untouched k w (callBy code id name arguments ctx w).2 := by
  unfold callBy
  split
  · exact .refl k w
  split
  · exact .refl k w
  · rename_i tool htool
    exact h tool htool

theorem collaboratorsBy_own (hw : Orderly [] w) {id : Nat} {a : Agent}
    (ha : w.agents[id]? = some a) (hk : a.session ≠ k) :
    (w.collaboratorsBy code id a).Own (Reaches w) (Untouched k) where
  preserves := collaboratorsBy_reach code w id a w
  refl := .refl k
  trans := .trans
  remember := by
    intro v _ m
    obtain ⟨memories,hm⟩ := remembered_eq code w id a m v
    rw [hm]
    exact untouched_elsewhere rfl rfl rfl
  reserve := fun {v} _ _ _ => .refl k v
  count := by
    intro v hv n
    refine untouched_updateAgent _ ?_
    intro b hb
    obtain ⟨b',hb',hsession,-⟩ := (reaches_orderly hv hw).2.agents id a ha
    obtain rfl := Option.some.inj (hb'.symm.trans hb)
    exact hsession ▸ hk
  publish := fun {v} _ e => untouched_elsewhere (sessions_publish a.bus e v)
    (agents_publish a.bus e v) (registries_publish a.bus e v)

def effectsOf (code : Code) (id : Nat) (input : String) (w : World) : List (World × World) :=
  match w.agents[id]? with
  | none => []
  | some a => Run.effects (w.collaboratorsBy code id a) (w.profile a) input w

theorem untouched_runBy (hw : Orderly [] w) {id : Nat} {input : String}
    (hk : ∀ a, w.agents[id]? = some a → a.session ≠ k)
    (h : ∀ x ∈ effectsOf code id input w, Untouched k x.1 x.2) :
    Untouched k w (runBy code id input w).2 := by
  unfold effectsOf at h
  unfold runBy
  cases ha : w.agents[id]? with
  | none => exact .refl k w
  | some a =>
    simp only [ha] at h
    exact Run.run_effects (collaboratorsBy_own hw ha (hk a ha)) _ input .refl h

end Runs

section Operations

inductive Operation where
  | ask (x : Admission)
  | add (x : Addition)
  | addRemoteTools (registry session client : Nat)
  | call (registry : Nat) (name arguments : String) (ctx : ToolContext)
  | run (agent : Nat) (input : String)
  | reset (agent : Nat)
  | close (session : Nat)

def Addition.registry : Addition → Nat
  | .one id _ | .all id _ => id

namespace Operation

def session (w : World) : Operation → Option Nat
  | .ask x => some x.session
  | .add x => (w.registries[x.registry]?).map Registry.session
  | .addRemoteTools id _ _ | .call id _ _ _ => (w.registries[id]?).map Registry.session
  | .run id _ | .reset id => (w.agents[id]?).map Agent.session
  | .close i => some i

def perform (code : Code) (w : World) : Operation → World
  | .ask x => (x.ask w).2
  | .add x => (x.perform w).2
  | .addRemoteTools id session client => (w.addRemoteTools id session client).2
  | .call id name arguments ctx => (callBy code id name arguments ctx w).2
  | .run id input => (runBy code id input w).2
  | .reset id => w.resetAgent id
  | .close i => w.close i

/-- The code that is called in an operation leaves the session `k` alone: that of models and tools,
and that of the clients which are disconnected. -/
def Spares (code : Code) (k : Nat) (w : World) : Operation → Prop
  | .call id name arguments ctx => ∀ tool, w.handler? id name = some tool →
    Untouched k w (code.execute tool ctx arguments w).2
  | .run id input => ∀ x ∈ effectsOf code id input w, Untouched k x.1 x.2
  | .close i => ¬ Relation.TransGen (Triggers w) i k
  | .ask _ | .add _ | .addRemoteTools _ _ _ | .reset _ => True

theorem untouched (hw : Orderly [] w) {code : Code} {x : Operation} (h : x.Spares code k w)
    (hk : x.session w ≠ some k) : Untouched k w (x.perform code w) := by
  have outside {id : Nat} (h : (w.registries[id]?).map Registry.session ≠ some k) :
      Outside k id w := by
    rintro r hr rfl
    exact h (by rw [hr,Option.map_some])
  have apart {id : Nat} (h : (w.agents[id]?).map Agent.session ≠ some k) :
      ∀ a, w.agents[id]? = some a → a.session ≠ k := by
    rintro a ha rfl
    exact h (by rw [ha,Option.map_some])
  cases x with
  | ask x => exact x.untouched_ask fun heq => hk (congrArg some heq)
  | add x =>
    simp only [perform,perform_eq]
    refine (attempts_induct (P := fun v => Untouched k w v ∧ Outside k x.registry v) ?_
      ⟨.refl k w,outside hk⟩).1
    intro v y hy hv
    have hid : y.1 = x.registry := by
      cases x with
      | one id tool => simp only [Addition.parts,List.mem_singleton] at hy; rw [hy]; rfl
      | all id tools =>
        obtain ⟨tool,-,rfl⟩ := List.mem_map.mp hy
        rfl
    rw [hid]
    exact untouched_step y.2 hv
  | addRemoteTools id session client =>
    refine (addRemoteTools_induct (P := fun v => Untouched k w v ∧ Outside k id v)
      ⟨.refl k w,outside hk⟩ ?_ ?_ fun tool hv => untouched_step tool hv).1
    · intro r a w' hlive hsession htrack
      obtain ⟨-,rfl⟩ := trackClient_ok htrack
      have hne : session ≠ k := hsession ▸ outside hk r (live?_ok hlive).1
      exact ⟨untouched_updateSession _ hne,outside hk⟩
    · intro v f hv
      exact ⟨hv.1.trans (untouched_elsewhere rfl rfl rfl),hv.2⟩
  | call id name arguments ctx => exact untouched_callBy h
  | run id input => exact untouched_runBy hw (apart hk) h
  | reset id => exact untouched_updateAgent _ (apart hk)
  | close i =>
    refine untouched_close hw ?_
    rw [Relation.reflTransGen_iff_eq_or_transGen]
    rintro (rfl | htriggers)
    · exact hk rfl
    · exact h htriggers

def There (w : World) : Operation → Prop
  | .ask x => x.There w
  | _ => True

theorem reaches (code : Code) {x : Operation} (h : x.There w) : Reaches w (x.perform code w) := by
  cases x with
  | ask x => exact x.ask_reaches h
  | add x =>
    simp only [perform,perform_eq]
    exact attempts_reaches _ w
  | addRemoteTools id session client => exact addRemoteTools_reaches id session client w
  | call id name arguments ctx => exact callBy_reaches code id name arguments ctx w
  | run id input => exact runBy_reaches code id input w
  | reset id => exact .single (.count id 0)
  | close i => exact .single (.close i)

end Operation

/-- Something that is done, but not on the session `k`. -/
inductive Apart (code : Code) (k : Nat) (w : World) : World → Prop
  | operation (x : Operation) (there : x.There w) (other : x.session w ≠ some k)
      (spares : x.Spares code k w) : Apart code k w (x.perform code w)
  | openSession (label : String) (config : Config) (bus : Option Nat) (h : k < w.sessions.length) :
      Apart code k w (w.openSession label config bus).2
  | elsewhere {w' : World} (sessions : w'.sessions = w.sessions) (agents : w'.agents = w.agents)
      (registries : w'.registries = w.registries) (arenas : w'.nextArena = w.nextArena) :
      Apart code k w w'

theorem Apart.untouched {code : Code} (h : Apart code k w w') (hw : Orderly [] w) :
    Reaches w w' ∧ Untouched k w w' := by
  cases h with
  | operation x there other spares => exact ⟨x.reaches code there,x.untouched hw spares other⟩
  | openSession label config bus h =>
    exact ⟨.single (.openSession label config bus),
      untouched_openSession label config bus (Nat.ne_of_lt h)⟩
  | elsewhere sessions agents registries arenas =>
    exact ⟨.single (.elsewhere sessions agents registries arenas),
      untouched_elsewhere sessions agents registries⟩

end Operations

theorem Untouched.entriesOf (h : Untouched k w w') {id : Nat} {r : Registry}
    (hr : w.registries[id]? = some r) (hk : r.session = k) : w'.entriesOf id = w.entriesOf id := by
  simp only [World.entriesOf,h.registries id r hr hk,hr,arenaOf,hk,h.session]

end ReasonAct.World
