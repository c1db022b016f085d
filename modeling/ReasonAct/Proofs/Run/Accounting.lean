import ReasonAct.Proofs.Chat.Usage
import ReasonAct.Proofs.Run.Course
import ReasonAct.Proofs.World.Solo
set_option autoImplicit false

namespace ReasonAct.Run

open Usage (accumulateAll)

def spent (acts : List Act) : List Usage := (Act.responses acts).map ChatResponse.usage

theorem usage_rounds (gs : List Round) (p : Progress) :
    (gs.foldl Round.after p).usage =
      (gs.map fun g => g.response.usage).foldl Usage.accumulate p.usage := by
  induction gs generalizing p with
  | nil => rfl
  | cons g gs ih => simp [ih,Round.after]

theorem usage_course (a : Profile) (tools : Option String) (o : Course) (p : Progress) :
    (o.result a p).usage = (spent (o.acts a tools p)).foldl Usage.accumulate p.usage := by
  have hrounds := usage_rounds o.rounds p
  simp only [spent,responses_course,Course.result,Ending.result,Ending.usage]
  cases o.ending.response? <;> simp [hrounds,List.map_map,Function.comp_def]

variable {σ : Type}

theorem run_usage (c : Collaborators σ) (a : Profile) (input : String) (s : σ)
    {result : RunResult} (h : (run c a input s).1 = .ok result) :
    result.usage = accumulateAll (spent (trace c a input s)) := by
  rcases run_course c a input s h with ⟨x,s₁,finishedAt,-,rfl,htrace⟩ | ⟨o,s₁,-,rfl,htrace⟩
  · simp [htrace,spent,opening,unheard,accumulateAll]
  · rw [usage_course a (c.schema s₁),htrace]
    simp [spent,opening,heard,accumulateAll]

theorem run_totalTokens (c : Collaborators σ) (a : Profile) (input : String) (s : σ)
    {result : RunResult} (h : (run c a input s).1 = .ok result)
    (hfit : ((spent (trace c a input s)).map Usage.exactTotal).sum < UInt64.size) :
    result.totalTokens.toNat =
      ((spent (trace c a input s)).map fun u => u.total.toNat).sum := by
  rw [RunResult.totalTokens,run_usage c a input s h,Usage.total_accumulateAll hfit,
    Usage.totalTokens_isSum hfit]

/-- A run adds up what its responses have cost. Adding up gives the sums, in whatever order. -/
theorem tokens_accounted (c : Collaborators σ) (a : Profile) (input : String)
    (s : σ) (result : RunResult) (hr : (run c a input s).1 = .ok result) :
    let costs := spent (trace c a input s)
    result.usage = accumulateAll costs ∧
    (Usage.Fit costs → result.totalTokens.toNat = (costs.map fun u => u.total.toNat).sum) ∧
    ∀ us, Usage.Fit us → Usage.IsSum us (accumulateAll us) ∧
      ∀ vs, us.Perm vs → accumulateAll vs = accumulateAll us := by
  refine ⟨run_usage c a input s hr,?_,?_⟩
  · exact fun hfit => run_totalTokens c a input s hr hfit.totals
  · exact fun us hfit => ⟨Usage.accumulateAll_isSum hfit,
      fun vs h => (Usage.accumulateAll_perm h).symm⟩

open World in
theorem tokens_accounted_mixed :
    let reported : Usage := { Usage.zero with inputTokens := 10, outputTokens := 5, totalTokens := 16 }
    let older : Usage := { Usage.zero with promptTokens := 20, completionTokens := 4 }
    let outcomes := [.ok { ChatResponse.toolUse [⟨"a", "echo", "1"⟩] with usage := reported },
      .ok { ChatResponse.stop "done" with usage := older }]
    let c := soloReach (.kept 0) outcomes
    let w := solo (.kept 0) outcomes
    let costs := spent (trace c soloProfile "hi" w)
    ∃ result, (run c soloProfile "hi" w).1 = .ok result ∧ costs = [reported, older] ∧
      Usage.Fit costs ∧ result.usage = accumulateAll costs ∧
      result.totalTokens.toNat = (costs.map fun u => u.total.toNat).sum ∧
      result.totalTokens = 40 := by
  intro reported older outcomes c w costs
  have hcosts : costs = [reported, older] := by decide +kernel
  have hfit : Usage.Fit costs := by
    rw [hcosts]
    refine ⟨fun k => ?_,by decide⟩
    cases k <;> decide
  have htokens : (run c soloProfile "hi" w).1.toOption.map RunResult.totalTokens =
      some 40 := by decide +kernel
  obtain ⟨result,hr⟩ := run_ok_iff.mpr ⟨show Text.blank "hi" = false by decide,
    show c.isShutDown w = false from rfl⟩
  obtain ⟨husage,htotal,-⟩ := tokens_accounted c soloProfile "hi" w result hr
  rw [hr] at htokens
  exact ⟨result,hr,hcosts,hfit,husage,htotal hfit,Option.some.inj htokens⟩

end ReasonAct.Run
