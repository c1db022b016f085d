import ReasonAct.Proofs.Run.Decisive
import ReasonAct.Proofs.World.Closed
set_option autoImplicit false

namespace ReasonAct.World

variable {w : World}

def turnsOf (id : Nat) (w : World) : Option UInt32 := w.agents[id]?.map Agent.iterations

theorem collaboratorsBy_counts (code : Code) (w₀ : World) (id : Nat) (a : Agent) :
    (w₀.collaboratorsBy code id a).Counts (Keeps id a) (turnsOf id) where
  preserves := collaboratorsBy_preserves code Keeps.reaches w₀ id a
  count := by
    intro w h n
    obtain ⟨a',ha',-⟩ := h.there
    simp [collaboratorsBy,collaborators,updateAgent,turnsOf,ha']
  remember := by
    intro m w
    obtain ⟨memories,hm⟩ := remembered_eq code w₀ id a m w
    exact (congrArg (turnsOf id) hm).trans rfl
  reserve _ _ _ := rfl
  publish := by
    intro e w
    obtain ⟨buses,hbuses⟩ := publish_eq a.bus e w
    exact (congrArg (turnsOf id) hbuses).trans rfl

/-- A run of an agent that nobody closed and whose memory took every message. -/
structure Concluded (code : Code) (id : Nat) (a : Agent) (input : String) (w : World)
    (result : RunResult) : Prop where
  outcomes : ∀ f : Nat → Except ProviderError ChatResponse,
    let outcomes := Act.outcomes
      (Run.trace (w.collaboratorsBy code id a) (w.profile a) input w)
    (∀ i o, outcomes[i]? = some o → o = f i) →
      Run.Concludes a.maxIterations.toNat f outcomes.length result.conclusion
  /-- The last call of the model comes behind the last counting, unless the turns are used up. -/
  counter : if result.status = .maxIterations then
      turnsOf id (runBy code id input w).2 = some result.iterations
    else Run.lastCall (w.collaboratorsBy code id a) (turnsOf id) (w.profile a) input w =
      some (some result.iterations, turnsOf id (runBy code id input w).2)

section Outcome

variable (code : Code) (hw : w.Reachable) {id : Nat} {a : Agent} (ha : w.agents[id]? = some a)
  {input : String}

include ha

theorem runBy_eq : runBy code id input w =
    Run.run (w.collaboratorsBy code id a) (w.profile a) input w := by simp only [runBy,ha]

include hw

theorem runBy_refused {e : Error} (hr : (runBy code id input w).1 = .error e) :
    (Text.blank input = true ∧ e = .invalidArgument "input must not be empty" ∨
      w.isClosed a.session = true ∧ e = Run.sessionClosed (w.labelOf a.session)) ∧
    (runBy code id input w).2 = w ∧
    Run.trace (w.collaboratorsBy code id a) (w.profile a) input w = [] := by
  have hkeeps : Keeps id a w := ⟨hw.orderly,a,ha,rfl,rfl⟩
  rw [runBy_eq code ha] at hr ⊢
  obtain ⟨he,hwhy,hsame,htrace⟩ := Run.run_error (w.profile a) input w hr
  refine ⟨?_,hsame,htrace⟩
  rw [(collaboratorsBy_closes code w id a).shut hkeeps] at hwhy
  cases hb : Text.blank input with
  | true => exact .inl ⟨rfl,by simpa [hb] using he⟩
  | false => exact .inr ⟨by simpa [hb] using hwhy,by simpa [hb,profile] using he⟩

theorem runBy_concluded {result : RunResult} (hr : (runBy code id input w).1 = .ok result)
    (hopen : (runBy code id input w).2.isClosed a.session = false)
    (htaken : Act.refused (Run.trace (w.collaboratorsBy code id a) (w.profile a) input w) = []) :
    Concluded code id a input w result := by
  have hkeeps : Keeps id a w := ⟨hw.orderly,a,ha,rfl,rfl⟩
  have hlaw := collaboratorsBy_closes code w id a
  have hpublish := isShutDown_publish code w id a
  have hrun : runBy code id input w = _ := runBy_eq code ha
  rw [hrun] at hr hopen
  constructor
  · intro f outcomes hf
    exact (Run.run_decides hlaw hpublish (w.profile a) input hkeeps hopen hr htaken).of_sequence hf
  · obtain ⟨o,tools,past,startedAt,now,-,hend,rfl,htrace⟩ :=
      Run.run_undisturbed hlaw hpublish (w.profile a) input hkeeps hopen hr htaken
    rw [hrun]
    exact Run.run_counter (collaboratorsBy_counts code w id a) (w.profile a) input hkeeps hend htrace

end Outcome

/-- The first decisive outcome of the model ends the run; without one the turns are used up. A run
is refused only for its input or its session, and then nothing is done. -/
theorem run_concludes (code : Code) (hw : w.Reachable) {id : Nat} {a : Agent}
    (ha : w.agents[id]? = some a) (input : String) :
    let acts := Run.trace (w.collaboratorsBy code id a) (w.profile a) input w
    let after := (runBy code id input w).2
    (Act.outcomes acts).length ≤ a.maxIterations.toNat ∧
    match (runBy code id input w).1 with
    | .error e =>
      (Text.blank input = true ∧ e = .invalidArgument "input must not be empty" ∨
        w.isClosed a.session = true ∧ e = Run.sessionClosed (w.labelOf a.session)) ∧
      after = w ∧ acts = []
    | .ok result =>
      (Text.blank input = false ∧ w.isClosed a.session = false) ∧
      (after.isClosed a.session = false → Act.refused acts = [] →
        Concluded code id a input w result) := by
  intro acts after
  refine ⟨Run.run_outcomes_le _ (w.profile a) input w,?_⟩
  cases hr : (runBy code id input w).1 with
  | error e => exact runBy_refused code hw ha hr
  | ok result =>
    refine ⟨?_,runBy_concluded code hw ha hr⟩
    rw [runBy_eq code ha] at hr
    obtain ⟨hb,hopen⟩ := Run.run_ok_iff.mp ⟨result,hr⟩
    exact ⟨hb,((collaboratorsBy_closes code w id a).shut ⟨hw.orderly,a,ha,rfl,rfl⟩).symm.trans hopen⟩

theorem run_concludes_second_turn :
    let w := quitters (.script 0 "p")
      [⟨"p", [.ok (.toolUse [⟨"c1", "lookup", "{}"⟩]), .ok (.stop "done")], [], []⟩]
    w.Reachable ∧ ∃ a, w.agents[0]? = some a ∧
      (runBy ownCode 0 "hi" w).2.isClosed a.session = false ∧
      Act.refused (Run.trace (w.collaboratorsBy ownCode 0 a) (w.profile a) "hi" w) = [] ∧
      ∃ result, (runBy ownCode 0 "hi" w).1 = .ok result ∧ Concluded ownCode 0 a "hi" w result ∧
        result.conclusion = ⟨.success, some "done", 2, none, none⟩ := by
  intro w
  have hw : w.Reachable := quitters_reachable _ _
  have hopen : (w.agents[0]?.map fun a =>
      ((runBy ownCode 0 "hi" w).2.isClosed a.session, (Act.refused (Run.trace
        (w.collaboratorsBy ownCode 0 a) (w.profile a) "hi" w)).isEmpty)) =
      some (false, true) := by decide +kernel
  have hresult : (runBy ownCode 0 "hi" w).1.toOption.map RunResult.conclusion =
      some ⟨.success, some "done", 2, none, none⟩ := by decide +kernel
  obtain ⟨a,ha,h⟩ := Option.map_eq_some_iff.mp hopen
  obtain ⟨hc,htaken⟩ := Prod.mk.inj h
  obtain ⟨-,hends⟩ := run_concludes ownCode hw ha "hi"
  cases hr : (runBy ownCode 0 "hi" w).1 with
  | error e =>
    rw [hr] at hresult
    contradiction
  | ok result =>
    rw [hr] at hends hresult
    exact ⟨hw,a,ha,hc,by simpa using htaken,result,rfl,hends.2 hc (by simpa using htaken),
      Option.some.inj hresult⟩

/-- A model that sets the agent's counter back when it is called for the last time leaves it so. -/
theorem model_resets_counter :
    let w := quitters (.script 0 "p") [⟨"p", [.ok (.stop "done")], [⟨[.resetAgent 0], 0⟩], []⟩]
    w.Reachable ∧ (run 0 "hi" w).2.isClosed 0 = false ∧
      (w.agents[0]?.map Agent.memory) = some none ∧
      (run 0 "hi" w).1.toOption.map RunResult.conclusion =
        some ⟨.success, some "done", 1, none, none⟩ ∧
      turnsOf 0 (run 0 "hi" w).2 = some 0 := by
  refine ⟨quitters_reachable _ _,?_,?_,?_,?_⟩ <;> decide +kernel

end ReasonAct.World
