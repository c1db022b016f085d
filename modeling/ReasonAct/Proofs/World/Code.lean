import ReasonAct.Proofs.Run.Closing
import ReasonAct.Proofs.World.Reaches
/-!
Code of tools and models, which can do to the world what can be done from outside and nothing else.
A run with any such code is no different from a sequence of public operations.
-/
set_option autoImplicit false

namespace ReasonAct.World

variable {w w' : World}

section Reaches

theorem elsewhere_reaches (sessions : w'.sessions = w.sessions) (agents : w'.agents = w.agents)
    (registries : w'.registries = w.registries) (arenas : w'.nextArena = w.nextArena) :
    Reaches w w' := .single (.elsewhere sessions agents registries arenas)

theorem foldl_reaches {α : Type} (f : World → α → World) (hf : ∀ w x, Reaches w (f w x))
    (xs : List α) (w : World) : Reaches w (xs.foldl f w) := by
  induction xs generalizing w with
  | nil => exact .refl
  | cons x xs ih => exact (hf w x).trans (ih (f w x))

theorem publish_eq (bus : Option Nat) (e : Event) (w : World) :
    ∃ buses, w.publish bus e = { w with buses } := by cases bus <;> exact ⟨_,rfl⟩

theorem publish_reaches (bus : Option Nat) (e : Event) (w : World) :
    Reaches w (w.publish bus e) := by
  obtain ⟨buses,h⟩ := publish_eq bus e w
  rw [h]
  exact elsewhere_reaches rfl rfl rfl rfl

theorem remember_updates {memory : Nat} {m : Message} (h : w.remember memory m = .ok w') :
    ∃ mem mem', w.memories[memory]? = some mem ∧ mem.append m = .ok mem' ∧
      w' = w.updateMemory (fun _ => mem') memory := by
  unfold remember at h
  split at h
  · contradiction
  rename_i mem hmem
  split at h
  · contradiction
  cases ha : mem.append m with
  | error e => simp [ha,Except.map] at h
  | ok mem' => exact ⟨mem,mem',hmem,ha,by simpa [ha,Except.map] using h.symm⟩

theorem remember_reaches {memory : Nat} {m : Message} (h : w.remember memory m = .ok w') :
    Reaches w w' := by
  obtain ⟨-,mem,-,-,rfl⟩ := remember_updates h
  exact elsewhere_reaches rfl rfl rfl rfl

theorem disconnect_reaches (client : Nat) (w : World) : Reaches w (w.disconnect client) := by
  have hmark : Reaches w (w.updateClient
      (fun c => { c with connected := false, log := c.log ++ ["disconnect"] }) client) :=
    elsewhere_reaches rfl rfl rfl rfl
  exact hmark.trans (foldl_reaches (fun w i => close i w) (fun _ i => .single (.close i)) _ _)

theorem perform_reaches (w : World) (x : Hook) : Reaches w (w.perform x) := by
  cases x with
  | close session => exact .single (.close session)
  | addTool registry tool => exact .single (.addTool registry tool)
  | append memory m =>
    simp only [perform]
    split
    · rename_i h
      exact remember_reaches h
    · exact .refl
  | clearMemory memory => exact elsewhere_reaches rfl rfl rfl rfl
  | disconnect client => exact disconnect_reaches client w
  | resetAgent agent => exact .single (.count agent 0)

theorem performAll_reaches (hooks : List Hook) (w : World) : Reaches w (w.performAll hooks) :=
  foldl_reaches perform perform_reaches hooks w

theorem execute_reaches (tool : Tool) (ctx : ToolContext) (arguments : String) (w : World) :
    Reaches w (execute tool ctx arguments w).2 := by
  cases tool with
  | builtin b => exact .refl
  | closure name description schema hooks reply => exact performAll_reaches hooks w
  | remote client info =>
    show Reaches w (callRemote client info.name arguments w).2
    unfold callRemote
    split
    · exact .refl
    split
    · exact .refl
    · exact elsewhere_reaches rfl rfl rfl rfl

def ProviderReaches (p : Provider World) : Prop :=
  ∀ request limit w, Reaches w (p request limit w).2

theorem callScript_reaches (id : Nat) : ProviderReaches (callScript id) := by
  intro request limit w
  have hpre (hooks : List Hook) (f : Script → Script) :
      Reaches w ((w.updateScript f id).performAll hooks) := by
    have hmark : Reaches w (w.updateScript f id) := elsewhere_reaches rfl rfl rfl rfl
    exact hmark.trans (performAll_reaches hooks _)
  unfold callScript
  dsimp only
  split
  · exact hpre _ _
  split
  · exact hpre _ _
  · exact (hpre _ _).trans (elsewhere_reaches rfl rfl rfl rfl)

theorem tryEach_reaches (request : ChatRequest) (limit : Option Nat)
    {entries : List (Fallback.Entry World)} (he : ∀ e ∈ entries, ProviderReaches e.provider)
    (last : ProviderError) (elapsed : Nat) (w : World) :
    Reaches w (Fallback.tryEach request limit entries last elapsed w).2 := by
  induction entries generalizing last elapsed w with
  | nil => exact .refl
  | cons e entries ih =>
    have he' : ∀ e ∈ entries, ProviderReaches e.provider := fun e h => he e (by simp [h])
    unfold Fallback.tryEach
    dsimp only
    generalize hlim : Fallback.atMost _ _ = ms
    have hk := he e (by simp) request (some ms) w
    split
    · rename_i r t s hs
      rw [hs] at hk
      exact hk
    · rename_i err t s hs
      rw [hs] at hk
      split
      · exact hk.trans (ih he' _ _ _)
      · exact hk
    · rename_i s hs
      rw [hs] at hk
      split
      · exact hk
      · exact hk.trans (ih he' _ _ _)

mutual

theorem provider_reaches : ∀ route : Route, ProviderReaches (provider route)
  | .script id _ => by
    unfold provider
    exact callScript_reaches id
  | .fallback _ entries => by
    unfold provider
    intro request limit w
    exact tryEach_reaches request limit (providers_reach entries) _ _ w

theorem providers_reach : ∀ entries : List (Route × Nat),
    ∀ e ∈ providers entries, ProviderReaches e.provider
  | [] => by simp [providers]
  | (route, timeoutMs) :: rest => by
    have hroute := provider_reaches route
    have hrest := providers_reach rest
    simp only [providers,List.mem_cons,forall_eq_or_imp]
    exact ⟨hroute,hrest⟩

end

theorem chat_reaches (route : Route) (request : ChatRequest) (w : World) :
    Reaches w (chat route request w).2 := by
  have hk := provider_reaches route request none w
  unfold chat
  split
  · rename_i outcome t s hs
    rw [hs] at hk
    exact hk
  · rename_i s hs
    rw [hs] at hk
    exact hk

end Reaches

/-- Code of models and tools. It may do anything, by way of public operations. -/
structure Code where
  chat : Route → ChatRequest → World → Except ProviderError ChatResponse × World
  execute : Tool → ToolContext → String → World → Except ToolError String × World
  chat_reaches : ∀ route request w, Reaches w (chat route request w).2
  execute_reaches : ∀ tool ctx arguments w, Reaches w (execute tool ctx arguments w).2

def ownCode : Code := ⟨chat, execute, chat_reaches, execute_reaches⟩

variable (code : Code)

def callBy (id : Nat) (name arguments : String) (ctx : ToolContext) (w : World) :
    Except Error String × World :=
  match w.live? id with
  | .error e => (.error e, w)
  | .ok _ =>
    match w.handler? id name with
    | none => (.ok (Run.notFound name), w)
    | some tool =>
      let (outcome, w) := code.execute tool ctx arguments w
      (.ok (outputText name outcome), w)

def collaboratorsBy (w : World) (id : Nat) (a : Agent) : Collaborators World :=
  { w.collaborators id a with
    chat := code.chat a.route
    answer := fun c => match a.registry with
      | none => fun w => (.ok (Run.notFound c.name), w)
      | some r => callBy code r c.name c.arguments (w.contextOf a) }

def runBy (id : Nat) (input : String) (w : World) : Except Error RunResult × World :=
  match w.agents[id]? with
  | none => (.error (.notFound "agent"), w)
  | some a => Run.run (w.collaboratorsBy code id a) (w.profile a) input w

theorem run_eq_runBy : run = runBy ownCode := rfl

/-- What an agent remembers goes into its memory and nowhere else. -/
theorem remembered_eq (w₀ : World) (id : Nat) (a : Agent) (m : Message) (w : World) :
    ∃ memories, ((w₀.collaboratorsBy code id a).remember m w).2 = { w with memories } := by
  simp only [collaboratorsBy,collaborators]
  cases a.memory with
  | none => exact ⟨_,rfl⟩
  | some memory =>
    dsimp only
    split
    · exact ⟨_,rfl⟩
    · rename_i hm
      obtain ⟨-,mem,-,-,rfl⟩ := remember_updates hm
      exact ⟨_,rfl⟩

theorem callBy_reaches (id : Nat) (name arguments : String) (ctx : ToolContext) (w : World) :
    Reaches w (callBy code id name arguments ctx w).2 := by
  unfold callBy
  split
  · exact .refl
  split
  · exact .refl
  · exact code.execute_reaches _ ctx arguments w

theorem collaboratorsBy_reach (w₀ : World) (id : Nat) (a : Agent) (w : World) :
    (w₀.collaboratorsBy code id a).Preserves (Reaches w) where
  chat h request := h.trans (code.chat_reaches a.route request _)
  answer := by
    intro w' h call
    cases hr : a.registry with
    | none => simpa [collaboratorsBy,hr] using h
    | some r =>
      have hcall := callBy_reaches code r call.name call.arguments (w₀.contextOf a) w'
      simpa [collaboratorsBy,hr] using h.trans hcall
  remember := by
    intro w' h m
    obtain ⟨memories,hm⟩ := remembered_eq code w₀ id a m w'
    rw [hm]
    exact h.trans (elsewhere_reaches rfl rfl rfl rfl)
  reserve h _ _ := h
  count h n := h.trans (.single (.count id n))
  publish h e := h.trans (publish_reaches a.bus e _)

/-- What holds on wherever a world gets to is kept by the surroundings of its agents. -/
theorem collaboratorsBy_preserves {P : World → Prop} (hP : ∀ {w w'}, P w → Reaches w w' → P w')
    (w₀ : World) (id : Nat) (a : Agent) : (w₀.collaboratorsBy code id a).Preserves P where
  chat h request := hP h ((collaboratorsBy_reach code w₀ id a _).chat .refl request)
  answer h call := hP h ((collaboratorsBy_reach code w₀ id a _).answer .refl call)
  remember h m := hP h ((collaboratorsBy_reach code w₀ id a _).remember .refl m)
  reserve h _ _ := h
  count h n := hP h ((collaboratorsBy_reach code w₀ id a _).count .refl n)
  publish h e := hP h ((collaboratorsBy_reach code w₀ id a _).publish .refl e)

theorem runBy_reaches (id : Nat) (input : String) (w : World) :
    Reaches w (runBy code id input w).2 := by
  unfold runBy
  split
  · exact .refl
  · exact Run.run_preserves (collaboratorsBy_reach code w id _ w) _ input .refl

end ReasonAct.World
