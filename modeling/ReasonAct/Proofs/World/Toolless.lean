import ReasonAct.Proofs.Run.Along
import ReasonAct.Proofs.Run.Unarmed
import ReasonAct.Proofs.World.Chronicle
import ReasonAct.Proofs.World.Dispatch
/-!
Agents without tools. To be bound to a registry that has none is the same as to be bound to none:
what a run asks, answers, remembers and publishes is the same, unless the registry is filled or its
session is closed meanwhile.
-/
set_option autoImplicit false

namespace ReasonAct

def Agent.boundTo (b : Option Nat) (a : Agent) : Agent := { a with registry := b }

@[simp] theorem Agent.boundTo_registry (b : Option Nat) (a : Agent) :
    (a.boundTo b).registry = b := rfl

@[simp] theorem Agent.boundTo_memory (b : Option Nat) (a : Agent) :
    (a.boundTo b).memory = a.memory := rfl

namespace World

variable {w w' : World} {k id i : Nat} {b : Option Nat}

/-- The same world, but for the registry that the agent is bound to. -/
def equip (b : Option Nat) (id : Nat) : World → World := updateAgent (Agent.boundTo b) id

theorem equip_agent (w : World) : (w.equip b id).agents[id]? = w.agents[id]?.map (.boundTo b) := by
  simp [equip,updateAgent]

theorem equip_of_agent {a : Agent} (ha : w.agents[id]? = some a) :
    (w.equip b id).agents[id]? = some (a.boundTo b) := by
  rw [equip_agent,ha]
  rfl

theorem createAgent_equip {session : Nat} {o : AgentOptions} {r : Registry}
    (hr : w.registries[k]? = some r) (hsession : r.session = session) (ho : o.registry = none)
    (route : Route) : w.createAgent session { o with registry := some k } route =
      ((w.createAgent session o route).1,
        (w.createAgent session o route).2.equip (some k) w.agents.length) := by
  have hsame : w.equip (some k) w.agents.length = w := by
    simp [equip,updateAgent,List.modify_eq_self]
  have hnone := Admission.ask_eq (.createAgent session o route) w
  have hsome := Admission.ask_eq (.createAgent session { o with registry := some k } route) w
  simp only [Admission.ask,Admission.session] at hnone hsome
  rw [hnone,hsome]
  cases w.openSession? session with
  | error e => simp only [hsame]
  | ok s =>
    have hfault : (Admission.createAgent session { o with registry := some k } route).fault? w =
        (Admission.createAgent session o route).fault? w := by
      simp [Admission.fault?,ho,hr,hsession]
    simp only [Admission.judged,hfault]
    cases (Admission.createAgent session o route).fault? w with
    | some e => simp only [hsame]
    | none =>
      simp [Admission.admitted,Admission.made,Admission.item,Admission.kind,Admission.session,equip,
        updateAgent,updateSession,List.modify_eq_take_cons_drop,Agent.boundTo,ho]

section Heedless

variable {α : Type}

/-- It makes no difference to what is done which registry the agent is bound to. -/
def Heedless (b : Option Nat) (id : Nat) (f : World → α × World) : Prop :=
  ∀ w, f (w.equip b id) = ((f w).1, (f w).2.equip b id)

def Passes (b : Option Nat) (id : Nat) (f : World → World) : Prop :=
  ∀ w, f (w.equip b id) = (f w).equip b id

theorem foldl_passes {f : World → α → World} (h : ∀ x, Passes b id fun w => f w x) (xs : List α)
    (w : World) : xs.foldl f (w.equip b id) = (xs.foldl f w).equip b id :=
  List.foldl_hom (equip b id) fun w x => h x w

theorem updateAgent_passes {f : Agent → Agent} (hf : ∀ a, f (a.boundTo b) = (f a).boundTo b)
    (j : Nat) : Passes b id (updateAgent f j) := by
  intro w
  refine congrArg (fun agents => { w with agents }) (List.ext_getElem? fun n => ?_)
  simp only [equip,updateAgent,getElem?_modify_map,Option.map_map]
  congr 1
  funext a
  by_cases hj : j = n <;> by_cases hid : id = n <;> simp [hj,hid,hf]

theorem count_passes (n : UInt32) (j : Nat) :
    Passes b id (updateAgent (fun a => { a with iterations := n }) j) :=
  updateAgent_passes (f := fun a => { a with iterations := n }) (fun _ => rfl) j

theorem publish_passes (bus : Option Nat) (e : Event) : Passes b id (publish bus e) := by
  intro w
  cases bus <;> rfl

theorem tearDown_passes (s : Session) (i : Nat) : Passes b id (tearDown s i) := by
  intro w
  have hdown (j : Nat) :
      Passes b id fun w => updateAgent (fun a => { a with shutDown := true }) j w :=
    updateAgent_passes (f := fun a => { a with shutDown := true }) (fun _ => rfl) j
  have hreleased (j : Nat) : Passes b id fun w =>
      updateRegistry (fun r => { r with released := true, entries := [] }) j w := fun _ => rfl
  unfold tearDown
  rw [foldl_passes hdown]
  dsimp only
  rw [foldl_passes hreleased]
  rfl

section Within

variable {close : Nat → World → World} (h : ∀ i, Passes b id (close i))

include h

theorem disconnectBy_passes (client : Nat) : Passes b id (disconnectBy close client) := by
  intro w
  exact foldl_passes (f := fun w i => close i w) h _ (w.updateClient
    (fun c => { c with connected := false, log := c.log ++ ["disconnect"] }) client)

theorem closeBy_passes (i : Nat) : Passes b id (closeBy close i) := by
  intro w
  rcases w.open_or_not i with ⟨s,hs,hopen⟩ | hnot
  · have halone : alone close s i (w.equip b id) = (alone close s i w).equip b id :=
      foldl_passes (f := fun w c => disconnectBy close c w) (disconnectBy_passes h) s.clients
        (w.updateSession marked i)
    have hs' : (w.equip b id).sessions[i]? = some s := hs
    rw [closeBy_open close hs hopen,closeBy_open close hs' hopen,halone,tearDown_passes]
    exact publish_passes _ _ _
  · rw [closeBy_of_not_open close hnot,closeBy_of_not_open close (w := w.equip b id) hnot]

end Within

theorem closeWithin_passes (depth i : Nat) : Passes b id (closeWithin depth i) := by
  induction depth generalizing i with
  | zero => exact fun _ => rfl
  | succ depth ih => exact closeBy_passes ih i

theorem close_passes (i : Nat) : Passes b id (close i) :=
  fun w => closeWithin_passes w.sessions.length i w

theorem addTool_heedless (j : Nat) (tool : Tool) : Heedless b id (addTool j tool) := by
  intro w
  have hlive : (w.equip b id).live? j = w.live? j := rfl
  unfold addTool
  rw [hlive]
  split
  · rfl
  split
  · rfl
  split
  · rfl
  split
  · rfl
  rename_i r a _ _ _ schema _ _
  have hhost : (w.equip b id).host = w.host := rfl
  rw [hhost]
  cases copyEntry w.host tool schema a with
  | mk entry a' =>
    cases entry with
    | error e => rfl
    | ok entry =>
      dsimp only [equip,updateAgent,updateSession,updateRegistry]
      cases w.room .table r.entries.length <;> rfl

theorem remember_heedless (memory : Nat) (m : Message) (w : World) :
    (w.equip b id).remember memory m = (w.remember memory m).map (equip b id) := by
  have hsame : (w.equip b id).memories = w.memories := rfl
  have hroom : (w.equip b id).room = w.room := rfl
  unfold remember
  rw [hsame,hroom]
  split
  · rfl
  · rename_i mem _
    split
    · rfl
    · cases mem.append m <;> rfl

theorem perform_passes (x : Hook) : Passes b id fun w => w.perform x := by
  intro w
  cases x with
  | close session => exact close_passes session w
  | addTool registry tool => exact congrArg Prod.snd (addTool_heedless registry tool w)
  | append memory m =>
    simp only [perform,remember_heedless]
    cases w.remember memory m <;> rfl
  | clearMemory memory => rfl
  | disconnect client => exact disconnectBy_passes close_passes client w
  | resetAgent agent => exact count_passes 0 agent w

theorem performAll_passes (hooks : List Hook) : Passes b id (performAll hooks) :=
  fun w => foldl_passes perform_passes hooks w

def ProviderHeedless (b : Option Nat) (id : Nat) (p : Provider World) : Prop :=
  ∀ request limit, Heedless b id (p request limit)

theorem callScript_heedless (j : Nat) : ProviderHeedless b id (callScript j) := by
  intro request limit w
  have hscripts (v : World) : (v.equip b id).scripts = v.scripts := rfl
  have hupdate (f : Script → Script) (v : World) :
      (v.equip b id).updateScript f j = (v.updateScript f j).equip b id := rfl
  have hprelude (hooks : List Hook) (v : World) :
      (v.equip b id).performAll hooks = (v.performAll hooks).equip b id :=
    performAll_passes hooks v
  unfold callScript
  simp only [hscripts,hupdate,hprelude]
  split
  · rfl
  split <;> rfl

theorem tryEach_heedless (request : ChatRequest) (limit : Option Nat)
    {entries : List (Fallback.Entry World)}
    (he : ∀ e ∈ entries, ProviderHeedless b id e.provider) (last : ProviderError) (elapsed : Nat) :
    Heedless b id (Fallback.tryEach request limit entries last elapsed) := by
  induction entries generalizing last elapsed with
  | nil => exact fun _ => rfl
  | cons e entries ih =>
    intro w
    have he' : ∀ e ∈ entries, ProviderHeedless b id e.provider := fun e h => he e (by simp [h])
    unfold Fallback.tryEach
    dsimp only
    generalize hlim : Fallback.atMost _ _ = ms
    rw [he e (by simp) request (some ms) w]
    rcases e.provider request (some ms) w with ⟨⟨err | r, t⟩ | _, w₁⟩
    · dsimp only
      split
      · exact ih he' _ _ w₁
      · rfl
    · rfl
    · dsimp only
      split
      · rfl
      · exact ih he' _ _ w₁

mutual

theorem provider_heedless : ∀ route : Route, ProviderHeedless b id (provider route)
  | .script j _ => by
    unfold provider
    exact callScript_heedless j
  | .fallback _ entries => by
    unfold provider
    intro request limit w
    exact tryEach_heedless request limit (providers_heedless entries) _ _ w

theorem providers_heedless : ∀ entries : List (Route × Nat),
    ∀ e ∈ providers entries, ProviderHeedless b id e.provider
  | [] => by simp [providers]
  | (route, timeoutMs) :: rest => by
    have hroute := provider_heedless route
    have hrest := providers_heedless rest
    simp only [providers,List.mem_cons,forall_eq_or_imp]
    exact ⟨hroute,hrest⟩

end

theorem chat_heedless (route : Route) (request : ChatRequest) :
    Heedless b id (chat route request) := by
  intro w
  unfold chat
  rw [provider_heedless route request none w]
  rcases provider route request none w with ⟨_ | _, _⟩ <;> rfl

end Heedless

section Vacant

/-- The session `i` is open, and the registry has no tool. -/
structure Vacant (k i : Nat) (w : World) : Prop where
  opened : w.isClosed i = false
  empty : w.toolNames k = []

theorem foldl_keep_eq_nil {tools : List Tool} (h : tools.foldl keep [] = []) : tools = [] := by
  have hnames := names_foldl_keep (l := []) tools (by simp)
  rw [h] at hnames
  cases tools with
  | nil => rfl
  | cons tool tools => simp [List.eraseDups_cons] at hnames

theorem Vacant.before (h : Vacant k i w') (hw : w.Reachable) (hreach : Reaches w w')
    (howned : w.registries[k]?.map Registry.session = some i) : Vacant k i w := by
  have hlast := (reaches_orderly hreach hw.orderly).2
  have hopen := hlast.isOpen h.opened
  obtain ⟨r,hr,rfl⟩ := Option.map_eq_some_iff.mp howned
  obtain ⟨r',hr',hsession⟩ := hlast.registries k r hr
  have hserving {v : World} {q : Registry} (hq : v.registries[k]? = some q)
      (hv : v.isClosed q.session = false) : Serving k v := by
    intro q' hq'
    obtain rfl := Option.some.inj (hq.symm.trans hq')
    exact hv
  obtain ⟨log,hlog⟩ := reachable_iff.mp hw
  obtain ⟨new,hnew⟩ := hlog.reaches hreach
  have hafter : (tools k (log ++ new)).foldl keep [] = [] := by
    have hnames := (hnew.reachable.shows k).names
    rw [h.empty] at hnames
    rw [← hnew.listed (hserving hr' (hsession ▸ h.opened))]
    exact List.map_eq_nil_iff.mp hnames.symm
  have hnone : tools k log = [] := by
    have hall := foldl_keep_eq_nil hafter
    rw [tools_append] at hall
    exact (List.append_eq_nil_iff.mp hall).1
  refine ⟨hopen,?_⟩
  rw [(hw.shows k).names,hlog.listed (hserving hr hopen),hnone]
  rfl

variable (hw : w.Reachable) (howned : w.registries[k]?.map Registry.session = some i)
  (h : Vacant k i w)

include hw h

theorem Vacant.functions? : w.functions? k = none := by
  have hshows := hw.shows k
  have hlisted : w.listed k = [] := List.map_eq_nil_iff.mp (hshows.names.symm.trans h.empty)
  rw [hshows.functions,hlisted]
  rfl

include howned

theorem Vacant.live? : ∃ r a, w.live? k = .ok (r, a) := by
  obtain ⟨r,hr,rfl⟩ := Option.map_eq_some_iff.mp howned
  have hlive := live?_eq hw.orderly hr
  rw [h.opened] at hlive
  obtain ⟨a,hlive⟩ := hlive
  exact ⟨r,a,hlive⟩

end Vacant

/-- Bound to the registry `k`, or to none. -/
def NoneBut (k : Nat) (b : Option Nat) : Prop := ∀ j, b = some j → j = k

theorem noneBut_none (k : Nat) : NoneBut k none := by simp [NoneBut]

theorem noneBut_some (k : Nat) : NoneBut k (some k) := by simp [NoneBut]

section Runs

/-- What models do does not depend on whether the agent is bound to the registry or to none, as long
as this is open and has no tool. An agent does not say what it is bound to. -/
def Code.Blind (code : Code) (k id i : Nat) : Prop :=
  ∀ b, NoneBut k b → ∀ route request w,
    (∀ a, w.agents[id]? = some a → NoneBut k a.registry) →
    Vacant k i w → Vacant k i (code.chat route request w).2 →
      code.chat route request (w.equip b id) =
        ((code.chat route request w).1, (code.chat route request w).2.equip b id)

theorem ownCode_blind (k id i : Nat) : ownCode.Blind k id i :=
  fun _ _ route request w _ _ _ => chat_heedless route request w

/-- All worlds on the way are vacant. -/
def VacantSince (w : World) (k i : Nat) (v : World) : Prop :=
  ∀ u, Reaches w u → Reaches u v → Vacant k i u

theorem VacantSince.before {u v : World} (h : VacantSince w k i v) (hreach : Reaches u v) :
    VacantSince w k i u := fun x hx hu => h x hx (hu.trans hreach)

def Beside (w : World) (b : Option Nat) (id : Nat) (s t : World) : Prop :=
  Reaches w s ∧ t = s.equip b id

/-- What goes on from one vacant world to another, and does not depend on the registry. -/
theorem along_of_heedless {α : Type} {f g : World → α × World} (hreach : ∀ s, Reaches s (f s).2)
    (h : ∀ s, Reaches w s → Vacant k i s → Vacant k i (f s).2 →
      g (s.equip b id) = ((f s).1, (f s).2.equip b id)) :
    Along (VacantSince w k i) (Beside w b id) f g := by
  intro s t hst hgood
  have hs := hgood.before (hreach s)
  obtain ⟨hbefore,rfl⟩ := hst hs
  have hafter := hbefore.trans (hreach s)
  have hsame := h s hbefore (hs s hbefore .refl) (hgood _ hafter .refl)
  exact ⟨hs,(congrArg Prod.fst hsame).symm,hafter,congrArg Prod.snd hsame⟩

theorem owner_reaches (hw : w.Reachable) (howned : w.registries[k]?.map Registry.session = some i)
    (hreach : Reaches w w') : w'.registries[k]?.map Registry.session = some i := by
  obtain ⟨r,hr,rfl⟩ := Option.map_eq_some_iff.mp howned
  obtain ⟨r',hr',hsession⟩ := (reaches_orderly hreach hw.orderly).2.registries k r hr
  simp [hr',hsession]

variable {code : Code} {a : Agent}

section Bound

variable (code) (hbound : NoneBut k a.registry)

include hbound

theorem schema_vacant (w₀ : World) (hnone : w.functions? k = none) :
    (w₀.collaboratorsBy code id a).schema w = none := by
  simp only [collaboratorsBy,collaborators]
  cases hregistry : a.registry with
  | none => rfl
  | some j =>
    obtain rfl := hbound j hregistry
    exact hnone

theorem answer_vacant {r : Registry} {arena : SharedArena} (hlive : w.live? k = .ok (r, arena))
    (hempty : w.toolNames k = []) (w₀ : World) (call : ToolCall) :
    (w₀.collaboratorsBy code id a).answer call w = (.ok (Run.notFound call.name), w) := by
  simp only [collaboratorsBy]
  cases hregistry : a.registry with
  | none => rfl
  | some j =>
    obtain rfl := hbound j hregistry
    have hnone : w.handler? j call.name = none := by simp [handler?_eq_none_iff,hempty]
    simp only [callBy,hlive,hnone]

variable {code}

/-- As long as the registry is empty and open, the surroundings of an agent that is bound to it are
those of one that is bound to none. -/
theorem collaboratorsBy_goAlong (hw : w.Reachable) (ha : w.agents[id]? = some a)
    (howned : w.registries[k]?.map Registry.session = some i) (hblind : code.Blind k id i)
    (hb : NoneBut k b) :
    (w.collaboratorsBy code id a).GoesAlong
      ((w.equip b id).collaboratorsBy code id (a.boundTo b))
      (VacantSince w k i) (Beside w b id) := by
  have hown := collaboratorsBy_reach code w id a
  have hstill {s : World} (hreach : Reaches w s) :
      ∀ a, s.agents[id]? = some a → NoneBut k a.registry := by
    obtain ⟨a',ha',-,hsame⟩ := (reaches_orderly hreach hw.orderly).2.agents id a ha
    intro a₁ ha₁
    obtain rfl := Option.some.inj (ha'.symm.trans ha₁)
    rwa [hsame]
  exact
    { chat := fun request => along_of_heedless (fun s => (hown s).chat .refl request)
        fun s hreach hs hs' => hblind b hb a.route request s (hstill hreach) hs hs'
      answer := by
        intro call
        refine along_of_heedless (fun s => (hown s).answer .refl call) fun s hreach hs _ => ?_
        obtain ⟨r,arena,hlive⟩ := hs.live? (hw.reaches hreach) (owner_reaches hw howned hreach)
        have hlive' : (s.equip b id).live? k = .ok (r, arena) := hlive
        rw [answer_vacant code hbound hlive hs.empty,
          answer_vacant code (a := a.boundTo b) hb hlive' hs.empty]
      remember := by
        intro m
        refine along_of_heedless (fun s => (hown s).remember .refl m) fun s _ _ _ => ?_
        simp only [collaboratorsBy,collaborators,Agent.boundTo_memory]
        cases a.memory with
        | none => rfl
        | some memory =>
          dsimp only
          rw [remember_heedless]
          cases s.remember memory m <;> rfl
      reserve := fun m n => along_of_heedless (fun _ => .refl) fun _ _ _ _ => rfl
      history := by
        rintro s _ - ⟨-,rfl⟩
        rfl
      schema := by
        rintro s _ hs ⟨hreach,rfl⟩
        have hnone := (hs s hreach .refl).functions? (hw.reaches hreach)
        have hnone' : (s.equip b id).functions? k = none := hnone
        rw [schema_vacant code hbound w hnone,schema_vacant code (a := a.boundTo b) hb _ hnone']
      isShutDown := by
        rintro s _ - ⟨-,rfl⟩
        simp only [collaboratorsBy,collaborators,equip_agent,Option.map_map]
        rfl
      clock := by
        rintro s _ - ⟨-,rfl⟩
        rfl
      count := fun n => along_of_heedless (fun s => (hown s).count .refl n) fun s _ _ _ =>
        congrArg (Prod.mk ()) (count_passes n id s)
      publish := fun e => along_of_heedless (fun s => (hown s).publish .refl e) fun s _ _ _ =>
        congrArg (Prod.mk ()) (publish_passes a.bus e s) }

end Bound

theorem collaboratorsBy_unarmed (code : Code) (w : World) (id : Nat) (hnone : a.registry = none) :
    (w.collaboratorsBy code id a).Unarmed where
  schema s := by simp [collaboratorsBy,collaborators,hnone]
  answer call s := by simp [collaboratorsBy,hnone]

theorem now_opened (code : Code) (w₀ w : World) (id : Nat) (a : Agent) (p : Profile) :
    (w₀.collaboratorsBy code id a).clock (Run.opened (w₀.collaboratorsBy code id a) p w) =
      w.now := by
  simp [Run.opened,collaboratorsBy,collaborators,updateAgent]

def traceBy (code : Code) (id : Nat) (input : String) (w : World) : List Act :=
  match w.agents[id]? with
  | none => []
  | some a => Run.trace (w.collaboratorsBy code id a) (w.profile a) input w

/-- What the agent is bound to cannot be seen from its run: neither in what passes, nor in the
result, nor in the world that is left. -/
structure Unseen (code : Code) (b : Option Nat) (id : Nat) (input : String) (w : World) : Prop where
  trace : traceBy code id input (w.equip b id) = traceBy code id input w
  result : (runBy code id input (w.equip b id)).1 = (runBy code id input w).1
  world : (runBy code id input (w.equip b id)).2 = (runBy code id input w).2.equip b id

theorem unseen_of_closed (hw : w.Reachable) (ha : w.agents[id]? = some a)
    (hc : w.isClosed a.session = true) (input : String) : Unseen code b id input w := by
  have ha' := equip_of_agent (b := b) ha
  have hshut : (w.collaboratorsBy code id a).isShutDown w = true := by
    rw [(collaboratorsBy_closes code w id a).shut ⟨hw.orderly,a,ha,rfl,rfl⟩]
    exact hc
  have hshut' : ((w.equip b id).collaboratorsBy code id (a.boundTo b)).isShutDown (w.equip b id)
      = true := by
    simpa [collaboratorsBy,collaborators,equip_agent,Agent.boundTo,Function.comp_def] using hshut
  obtain ⟨hrun,htrace⟩ := Run.run_of_shutDown hshut (w.profile a) input
  obtain ⟨hrun',htrace'⟩ := Run.run_of_shutDown hshut' ((w.equip b id).profile (a.boundTo b))
    input
  constructor <;> simp only [runBy,traceBy,ha,ha',hrun,hrun',htrace,htrace']
  rfl

theorem unseen_of_vacant (hw : w.Reachable) (ha : w.agents[id]? = some a)
    (hbound : NoneBut k a.registry)
    (howned : w.registries[k]?.map Registry.session = some a.session)
    (hblind : code.Blind k id a.session) (hb : NoneBut k b) {input : String}
    (hvacant : Vacant k a.session (runBy code id input w).2) : Unseen code b id input w := by
  have ha' := equip_of_agent (b := b) ha
  have hsince : VacantSince w k a.session (runBy code id input w).2 := fun u hu hu' =>
    hvacant.before (hw.reaches hu) hu' (owner_reaches hw howned hu)
  simp only [runBy,ha] at hsince
  obtain ⟨⟨hresult,-,hworld⟩,htrace⟩ := Run.trace_along
    (collaboratorsBy_goAlong hbound hw ha howned hblind hb) (w.profile a) input
    (s := w) (t := w.equip b id) ⟨.refl,rfl⟩ hsince
  constructor <;> simp only [runBy,traceBy,ha,ha']
  · exact htrace.symm
  · exact hresult.symm
  · exact hworld

/-- An agent that is bound to an empty registry of its session runs as it does when it is bound to
none, if in either run the session is not closed and the registry gets no tool. It is shown no tool,
and whatever tool it calls, the answer is an error that names it. -/
theorem empty_registry_unseen (code : Code) {a : Agent} {r : Registry} (hw : w.Reachable)
    (ha : w.agents[id]? = some a) (hbound : a.registry = none ∨ a.registry = some k)
    (hr : w.registries[k]? = some r) (hsession : r.session = a.session)
    (hblind : code.Blind k id a.session) (input : String)
    (hkept : (runBy code id input w).2.isClosed a.session = w.isClosed a.session)
    (hempty : (runBy code id input w).2.toolNames k = []) :
    Unseen code none id input w ∧ Unseen code (some k) id input w ∧
      Run.Vain w.now input (traceBy code id input w) (runBy code id input w).1 ∧
      ∀ name, Reports (Run.notFound name) ("Tool '" ++ name ++ "' not found") := by
  have howned : w.registries[k]?.map Registry.session = some a.session := by simp [hr,hsession]
  have hnoneBut : NoneBut k a.registry := by
    rcases hbound with h | h <;> rw [h]
    · exact noneBut_none k
    · exact noneBut_some k
  have hunseen {b : Option Nat} (hb : NoneBut k b) : Unseen code b id input w := by
    cases hc : w.isClosed a.session with
    | true => exact unseen_of_closed hw ha hc input
    | false =>
      exact unseen_of_vacant hw ha hnoneBut howned hblind hb ⟨hkept.trans hc,hempty⟩
  have hfree := hunseen (noneBut_none k)
  refine ⟨hfree,hunseen (noneBut_some k),?_,fun name => reports_errorPayload _⟩
  rw [← hfree.trace,← hfree.result]
  have hunarmed := collaboratorsBy_unarmed code (w.equip none id) id
    (Agent.boundTo_registry none a)
  simp only [runBy,traceBy,equip_of_agent ha]
  have hvain := Run.unarmed_vain hunarmed ((w.equip none id).profile (a.boundTo none)) input
    (w.equip none id)
  rwa [now_opened] at hvain

def bareroom (name : String) (hooks : List Hook) : World :=
  let w := ((World.empty Arena.addressable default none default).openSession "s" default none).2
  { (w.createRegistry 0).2 with
    scripts := [⟨"p", [.ok (.toolUse [⟨"c1", name, "{}"⟩]), .ok (.stop "done")], [⟨hooks, 0⟩],
      []⟩] }

def dweller (registry : Option Nat) (w : World) : World :=
  (w.createAgent 0 ⟨"dweller", registry, none, 3, none, none, none, none⟩ (.script 0 "p")).2

theorem bareroom_reachable (name : String) (hooks : List Hook) :
    (bareroom name hooks).Reachable := by
  have hopened : Reaches (World.empty Arena.addressable default none default) _ :=
    .single (.openSession "s" default none)
  exact ⟨_,_,_,_,(hopened.tail (.createRegistry 0)).trans (elsewhere_reaches rfl rfl rfl rfl)⟩

theorem dweller_reachable (hw : w.Reachable) : (dweller none w).Reachable :=
  hw.reaches (.single (.createAgent 0 _ _ fun _ h => nomatch h))

theorem dweller_equip {r : Registry} (hr : w.registries[k]? = some r) (hsession : r.session = 0) :
    dweller (some k) w = (dweller none w).equip (some k) w.agents.length :=
  congrArg Prod.snd (createAgent_equip (o := ⟨"dweller", none, none, 3, none, none, none, none⟩) hr
    hsession rfl (.script 0 "p"))

theorem empty_registry_unseen_bareroom :
    let w := bareroom "no \"such\"\n✗" []
    let bare := dweller none w
    let bound := dweller (some 0) w
    bound.toolNames 0 = [] ∧
    traceBy ownCode 0 "hi" bound = traceBy ownCode 0 "hi" bare ∧
    (run 0 "hi" bound).1 = (run 0 "hi" bare).1 ∧
    (run 0 "hi" bound).2 = (run 0 "hi" bare).2.equip (some 0) 0 ∧
    (run 0 "hi" bare).1.toOption.map (fun result => result.messages.map Message.content) =
      some [some "hi", none, some (Run.notFound "no \"such\"\n✗"), some "done"] ∧
    Reports (Run.notFound "no \"such\"\n✗") ("Tool '" ++ "no \"such\"\n✗" ++ "' not found") := by
  intro w bare bound
  have hw : bare.Reachable := dweller_reachable (bareroom_reachable _ _)
  have hagent : bare.agents[0]?.map (fun a => (a.session, a.registry)) = some (0, none) := by
    decide +kernel
  have hregistry : bare.registries[0]?.map Registry.session = some 0 := by decide +kernel
  obtain ⟨a,ha,hown⟩ := Option.map_eq_some_iff.mp hagent
  obtain ⟨r,hr,h0⟩ := Option.map_eq_some_iff.mp hregistry
  obtain ⟨hsession,hnone⟩ := Prod.mk.inj hown
  have hkept : (run 0 "hi" bare).2.isClosed 0 = bare.isClosed 0 := by decide +kernel
  have hempty : (run 0 "hi" bare).2.toolNames 0 = [] := by decide +kernel
  rw [run_eq_runBy] at hkept hempty ⊢
  have hbound : bound = bare.equip (some 0) 0 := dweller_equip (w := w) hr h0
  obtain ⟨-,hunseen,-,hreports⟩ := empty_registry_unseen ownCode hw ha (.inl hnone) hr
    (h0.trans hsession.symm) (ownCode_blind 0 0 _) "hi" (by rw [hsession]; exact hkept) hempty
  refine ⟨by decide +kernel,?_,?_,?_,by decide +kernel,hreports _⟩ <;> rw [hbound]
  · exact hunseen.trace
  · exact hunseen.result
  · exact hunseen.world

/-- When the model adds the tool that it calls, an agent finds it if it is bound to the registry,
which was empty at first. -/
theorem filled_registry_seen :
    let w := bareroom "t" [.addTool 0 (.closure "t" "" .null [] (.returns "x"))]
    let contents (w : World) := (run 0 "hi" w).1.toOption.map fun result =>
      result.messages.map Message.content
    w.Reachable ∧ (dweller (some 0) w).toolNames 0 = [] ∧
    (dweller (some 0) w).registries.map Registry.session = [0] ∧
    (run 0 "hi" (dweller none w)).2.isClosed 0 = false ∧
    (run 0 "hi" (dweller (some 0) w)).2.isClosed 0 = false ∧
    contents (dweller none w) = some [some "hi", none, some (Run.notFound "t"), some "done"] ∧
    contents (dweller (some 0) w) = some [some "hi", none, some "x", some "done"] := by
  intro w contents
  refine ⟨bareroom_reachable _ _,?_,?_,?_,?_,?_,?_⟩ <;> decide +kernel

end Runs

end World
end ReasonAct
