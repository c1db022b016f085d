import ReasonAct.Proofs.World.Code
set_option autoImplicit false

namespace ReasonAct.World

variable {w w' : World}

/-- Made by public operations from nothing. -/
def Reachable (w : World) : Prop :=
  ∃ host files workingDir now, Reaches (World.empty host files workingDir now) w

def isClosed (i : Nat) (w : World) : Bool := (w.sessions[i]?.map Session.closed).getD false

theorem Reachable.orderly (h : w.Reachable) : Orderly [] w := by
  obtain ⟨host,files,workingDir,now,hreach⟩ := h
  have hempty : Orderly [] (World.empty host files workingDir now) :=
    { arenas := by simp [World.empty]
      closing := by simp
      agents := ⟨by simp [World.empty],by simp [World.empty],by simp [World.empty]⟩
      registries := ⟨by simp [World.empty],by simp [World.empty],by simp [World.empty]⟩
      paired := by simp [World.empty] }
  exact (reaches_orderly hreach hempty).1

theorem Lasting.isClosed (h : Lasting w w') {i : Nat} (hc : w.isClosed i = true) :
    w'.isClosed i = true := by
  unfold World.isClosed at hc ⊢
  cases hs : w.sessions[i]? with
  | none => simp [hs] at hc
  | some s =>
    obtain ⟨s',hs',hclosed⟩ := h.sessions i s hs
    simpa [hs'] using hclosed (by simpa [hs] using hc)

theorem Lasting.isOpen (h : Lasting w w') {i : Nat} (hopen : w'.isClosed i = false) :
    w.isClosed i = false := by
  refine Bool.eq_false_iff.mpr fun hc => ?_
  rw [h.isClosed hc] at hopen
  contradiction

section Orderly

variable (hw : Orderly [] w)

include hw

theorem shutDown_eq {id : Nat} {a : Agent} (ha : w.agents[id]? = some a) :
    a.shutDown = w.isClosed a.session := by
  have hlt := hw.agents.owned id a ha
  have hs := List.getElem?_eq_getElem hlt
  have hended := (hw.agents.settled _ _ hs (by simp) id a ha rfl).1
  simp [isClosed,hs,hended]

theorem live?_eq {id : Nat} {r : Registry} (hr : w.registries[id]? = some r) :
    if w.isClosed r.session then w.live? id = .error released
    else ∃ a, w.live? id = .ok (r, a) := by
  have hlt := hw.registries.owned id r hr
  have hs := List.getElem?_eq_getElem hlt
  have hended := (hw.registries.settled _ _ hs (by simp) id r hr rfl).1
  have harena := hw.arenas _ _ hs (by simp)
  have hat : w.arenaOf r = some w.sessions[r.session].arena := by simp [arenaOf,hs]
  simp only [isClosed,live?,hr,hat,hended,harena,hs,Option.map_some,Option.getD_some]
  cases w.sessions[r.session].closed <;> simp

theorem callBy_closed (code : Code) {id : Nat} {r : Registry} (hr : w.registries[id]? = some r)
    (hc : w.isClosed r.session = true) (name arguments : String) (ctx : ToolContext) :
    callBy code id name arguments ctx w = (.error released, w) := by
  have hlive := live?_eq hw hr
  rw [if_pos hc] at hlive
  simp only [callBy,hlive]

theorem callBy_open (code : Code) {id : Nat} {r : Registry} (hr : w.registries[id]? = some r)
    (hc : w.isClosed r.session = false) (name arguments : String) (ctx : ToolContext) :
    ∃ output, (callBy code id name arguments ctx w).1 = .ok output := by
  have hlive := live?_eq hw hr
  obtain ⟨a,hlive⟩ : ∃ a, w.live? id = .ok (r, a) := by simpa [hc] using hlive
  simp only [callBy,hlive]
  split <;> exact ⟨_,rfl⟩

end Orderly

/-- The agent is there, under its session and with its registry. -/
structure Keeps (id : Nat) (a : Agent) (w : World) : Prop where
  orderly : Orderly [] w
  there : ∃ a', w.agents[id]? = some a' ∧ a'.session = a.session ∧ a'.registry = a.registry

theorem Keeps.reaches {id : Nat} {a : Agent} (h : Keeps id a w) (hr : Reaches w w') :
    Keeps id a w' := by
  obtain ⟨horder,hlast⟩ := reaches_orderly hr h.orderly
  obtain ⟨a₁,ha₁,hs₁,hr₁⟩ := h.there
  obtain ⟨a₂,ha₂,hs₂,hr₂⟩ := hlast.agents id a₁ ha₁
  exact ⟨horder,a₂,ha₂,hs₂.trans hs₁,hr₂.trans hr₁⟩

theorem Keeps.registry {id : Nat} {a : Agent} (h : Keeps id a w) {k : Nat}
    (hk : a.registry = some k) : ∃ r, w.registries[k]? = some r ∧ r.session = a.session := by
  obtain ⟨a',ha',hs,hr⟩ := h.there
  obtain ⟨r,hat,hrs⟩ := h.orderly.paired id a' ha' k (hr.trans hk)
  exact ⟨r,hat,hrs.trans hs⟩

theorem collaboratorsBy_closes (code : Code) (w₀ : World) (id : Nat) (a : Agent) :
    (w₀.collaboratorsBy code id a).Closes (Keeps id a) (isClosed a.session) a.registry.isSome
      released where
  shut := by
    intro w h
    obtain ⟨a',ha',hs,-⟩ := h.there
    have hshut := shutDown_eq h.orderly ha'
    simp [collaboratorsBy,collaborators,ha',hshut,hs]
  counting := by
    intro n w
    simp only [collaboratorsBy,collaborators,updateAgent,getElem?_modify_map,Option.map_map]
    cases w.agents[id]? <;> simp
  chat h request := h.reaches (code.chat_reaches a.route request _)
  served := by
    intro w h hopen call
    have hreach := (collaboratorsBy_reach code w₀ id a w).answer .refl call
    refine ⟨h.reaches hreach,?_,?_⟩
    · cases hreg : a.registry with
      | none => simp [collaboratorsBy,hreg]
      | some k =>
        obtain ⟨r,hr,hs⟩ := h.registry hreg
        have hcall := callBy_open h.orderly code hr (hs ▸ hopen) call.name call.arguments
          (w₀.contextOf a)
        simpa [collaboratorsBy,hreg] using hcall
    · cases hreg : a.registry with
      | none => simp [collaboratorsBy,hreg,hopen]
      | some k => exact fun _ => rfl
  refused := by
    intro w h hc call
    cases hreg : a.registry with
    | none => simp [collaboratorsBy,hreg]
    | some k =>
      obtain ⟨r,hr,hs⟩ := h.registry hreg
      have hcall := callBy_closed h.orderly code hr (hs ▸ hc) call.name call.arguments
        (w₀.contextOf a)
      simpa [collaboratorsBy,hreg] using hcall
  remember := by
    intro w h m
    have hreach := (collaboratorsBy_reach code w₀ id a w).remember .refl m
    obtain ⟨memories,hm⟩ := remembered_eq code w₀ id a m w
    exact ⟨h.reaches hreach,(congrArg (isClosed a.session) hm).trans rfl⟩
  reserve h _ _ := ⟨h,rfl⟩
  count := by
    intro w h n
    exact ⟨h.reaches (.single (.count id n)),rfl⟩
  publish := by
    intro w h e
    obtain ⟨buses,hbuses⟩ := publish_eq a.bus e w
    exact ⟨h.reaches (publish_reaches a.bus e w),(congrArg (isClosed a.session) hbuses).trans rfl⟩

theorem isShutDown_publish (code : Code) (w₀ : World) (id : Nat) (a : Agent) (e : Event)
    (w : World) :
    (w₀.collaboratorsBy code id a).isShutDown ((w₀.collaboratorsBy code id a).publish e w) =
      (w₀.collaboratorsBy code id a).isShutDown w := by
  obtain ⟨buses,hbuses⟩ := publish_eq a.bus e w
  exact (congrArg (w₀.collaboratorsBy code id a).isShutDown hbuses).trans rfl

/-- Neither a run nor a tool can be started under the session `i`. -/
structure Idle (code : Code) (i : Nat) (w : World) : Prop where
  runs : ∀ (id : Nat) (a : Agent), w.agents[id]? = some a → a.session = i → ∀ input,
    runBy code id input w =
        (.error (if Text.blank input then .invalidArgument "input must not be empty"
          else Run.sessionClosed (w.labelOf i)), w) ∧
      Run.trace (w.collaboratorsBy code id a) (w.profile a) input w = []
  calls : ∀ (id : Nat) (r : Registry), w.registries[id]? = some r → r.session = i →
    ∀ name arguments ctx, callBy code id name arguments ctx w = (.error released, w)

theorem idle_of_closed (hw : Orderly [] w) (code : Code) {i : Nat} (hc : w.isClosed i = true) :
    Idle code i w where
  runs := by
    intro id a ha hsession input
    subst hsession
    have hshut : (w.collaboratorsBy code id a).isShutDown w = true := by
      rw [(collaboratorsBy_closes code w id a).shut ⟨hw,a,ha,rfl,rfl⟩]
      exact hc
    obtain ⟨hrun,htrace⟩ := Run.run_of_shutDown hshut (w.profile a) input
    exact ⟨by simp only [runBy,ha,hrun]; rfl,htrace⟩
  calls := by
    intro id r hr hsession name arguments ctx
    subst hsession
    exact callBy_closed hw code hr hc name arguments ctx

/-- Of a run of the agent `a` in the middle of which its session was closed: the acts before the
closing, the act in which it happened, and those that followed. -/
structure CutOff (code : Code) (id : Nat) (a : Agent) (input : String) (w : World)
    (result : RunResult) (before : List Act) (x : Act) (after : List Act) : Prop where
  watched : Run.watch (w.collaboratorsBy code id a) (isClosed a.session) (w.profile a) input w =
    .closed before x after
  trace : Run.trace (w.collaboratorsBy code id a) (w.profile a) input w =
    before ++ x :: after
  closing : x.CanClose a.registry.isSome
  quiet : ∀ y ∈ after, y.Quiet a.registry.isSome released
  ending : Act.refused (before ++ x :: after) = [] → (result.status, result.error) =
    Run.verdict a.maxIterations.toNat a.registry.isSome before x

theorem runBy_cutOff (hw : Orderly [] w) (code : Code) {id : Nat} {a : Agent}
    (ha : w.agents[id]? = some a) (hopen : w.isClosed a.session = false) {input : String}
    (hb : Text.blank input = false)
    (hc : (runBy code id input w).2.isClosed a.session = true) :
    ∃ result before x after, (runBy code id input w).1 = .ok result ∧
      CutOff code id a input w result before x after := by
  have hlaw := collaboratorsBy_closes code w id a
  have hkeeps : Keeps id a w := ⟨hw,a,ha,rfl,rfl⟩
  simp only [runBy,ha] at hc ⊢
  obtain ⟨result,hr⟩ := Run.run_ok_iff.mpr ⟨hb,(hlaw.shut hkeeps).trans hopen⟩
  have hclosed := (Run.watch_lawful hlaw (w.profile a) input hkeeps hopen).2.2
  rw [hc] at hclosed
  cases hwatch : Run.watch (w.collaboratorsBy code id a) (isClosed a.session) (w.profile a) input w
    with
  | waiting acts =>
    rw [hwatch] at hclosed
    contradiction
  | closed before x after =>
    obtain ⟨htrace,hx,hquiet,hend⟩ := Run.run_closing hlaw rfl _ _ hkeeps hopen hr hwatch
    rw [htrace] at hend
    exact ⟨result,before,x,after,hr,hwatch,htrace,hx,hquiet,hend⟩

/-- Once a session was closed no run of its agents begins and no tool of its registries is run,
whatever is done. When it is closed in the middle of a run the agent's model is not asked any more
either, and the way the run ends follows from the act in which it was closed. -/
theorem nothing_starts_after_close (code : Code) (hw : w.Reachable) :
    (∀ i < w.sessions.length, ∀ w', Reaches (w.close i) w' → w'.isClosed i = true) ∧
    (∀ i w', Reaches w w' → w'.isClosed i = true → Idle code i w') ∧
    ∀ (id : Nat) (a : Agent), w.agents[id]? = some a → w.isClosed a.session = false →
      ∀ input, Text.blank input = false → (runBy code id input w).2.isClosed a.session = true →
        ∃ result before x after, (runBy code id input w).1 = .ok result ∧
          CutOff code id a input w result before x after := by
  have horder := hw.orderly
  refine ⟨?_,?_,?_⟩
  · intro i hi w' hreach
    obtain ⟨s',hs',hclosed⟩ := close_closes horder (List.getElem?_eq_getElem hi)
    have hlast := (reaches_orderly hreach (close_orderly [] w i horder).1).2
    exact hlast.isClosed (by simpa [isClosed,hs'] using hclosed)
  · intro i w' hreach hc
    exact idle_of_closed (reaches_orderly hreach horder).1 code hc
  · intro id a ha hopen input hb hc
    exact runBy_cutOff horder code ha hopen hb hc

def quitting : Tool := .closure "quit" "" .null [.close 0] (.returns "{}")

def quitter : AgentOptions := ⟨"quitter", some 0, none, 2, none, none, none, none⟩

def fragile : World :=
  let w := ((World.empty Arena.addressable default none default).openSession "s" default none).2
  ((w.createRegistry 0).2.addTool 0 quitting).2

def quitters (route : Route) (scripts : List Script) : World :=
  (createAgent 0 quitter route { fragile with scripts := scripts }).2

theorem quitters_reachable (route : Route) (scripts : List Script) :
    (quitters route scripts).Reachable := by
  have hopened : Reaches (World.empty Arena.addressable default none default) _ :=
    .single (.openSession "s" default none)
  have hfragile : Reaches _ fragile := (hopened.tail (.createRegistry 0)).tail (.addTool 0 quitting)
  have hscripts : Reaches fragile { fragile with scripts := scripts } :=
    elsewhere_reaches rfl rfl rfl rfl
  have hmade : 0 < fragile.registries.length := by decide +kernel
  have hagent : Step { fragile with scripts := scripts } (quitters route scripts) :=
    .createAgent 0 quitter route fun r hr => Option.some.inj hr ▸ hmade
  exact ⟨_,_,_,_,(hfragile.trans hscripts).tail hagent⟩

theorem nothing_starts_after_close_quit :
    let w := quitters (.script 0 "p")
      [⟨"p", [.ok (.toolUse [⟨"c1", "quit", "{}"⟩, ⟨"c2", "quit", "{}"⟩])], [], []⟩]
    w.Reachable ∧ ∃ a, w.agents[0]? = some a ∧
      ∃ result before x after, (run 0 "hi" w).1 = .ok result ∧
        CutOff ownCode 0 a "hi" w result before x after ∧
        (result.status, result.error) = (.error, some .invalidState) ∧
        Idle ownCode 0 (run 0 "hi" w).2 := by
  intro w
  have hw : w.Reachable := quitters_reachable _ _
  have hsession : w.agents[0]?.map Agent.session = some 0 := by decide +kernel
  have hopen : w.isClosed 0 = false := by decide +kernel
  have hclosed : (run 0 "hi" w).2.isClosed 0 = true := by decide +kernel
  have hstatus : (run 0 "hi" w).1.toOption.map (fun r => (r.status, r.error)) =
      some (.error, some .invalidState) := by decide +kernel
  obtain ⟨a,ha,h0⟩ := Option.map_eq_some_iff.mp hsession
  obtain ⟨-,hidle,hcut⟩ := nothing_starts_after_close ownCode hw
  obtain ⟨result,before,x,after,hr,h⟩ :=
    hcut 0 a ha (h0 ▸ hopen) "hi" (by decide) (h0 ▸ hclosed)
  rw [← run_eq_runBy] at hr
  refine ⟨hw,a,ha,result,before,x,after,hr,h,?_,hidle 0 _ (runBy_reaches ownCode 0 "hi" w) hclosed⟩
  rw [hr] at hstatus
  exact Option.some.inj hstatus

/-- A blank input is refused as such, closed or not. And when a model closes the session and fails,
the chain that it is part of still asks the next one. -/
theorem close_does_not_stop_everything :
    let p : Route := .script 0 "p"
    let chain : Route := .fallback "chain" [(p, 1000), (.script 1 "q", 1000)]
    let w := quitters chain [⟨"p", [.error (.network "down")], [⟨[.close 0], 0⟩], []⟩,
      ⟨"q", [.ok (.stop "late")], [], []⟩]
    w.Reachable ∧ (w.close 0).isClosed 0 = true ∧
      (run 0 " " (w.close 0)).1 = .error (.invalidArgument "input must not be empty") ∧
      (chat p ⟨[.user "hi" default], none, none⟩ w).2.isClosed 0 = true ∧
      (chat p ⟨[.user "hi" default], none, none⟩ w).2.scripts.map (·.requests.length) = [1, 0] ∧
      (run 0 "hi" w).2.scripts.map (·.requests.length) = [1, 1] := by
  intro p chain w
  have hw : w.Reachable := quitters_reachable _ _
  have hc : (w.close 0).isClosed 0 = true := by decide +kernel
  have hsession : (w.close 0).agents[0]?.map Agent.session = some 0 := by decide +kernel
  obtain ⟨a,ha,h0⟩ := Option.map_eq_some_iff.mp hsession
  have hidle := idle_of_closed (close_orderly [] w 0 hw.orderly).1 ownCode hc
  have hrun : run 0 " " (w.close 0) = _ := (hidle.runs 0 a ha h0 " ").1
  have hb : Text.blank " " = true := by decide
  refine ⟨hw,hc,by simp [hrun,hb],?_,?_,?_⟩ <;> decide +kernel

end ReasonAct.World
