import ReasonAct.Proofs.Run.Requests
import ReasonAct.Proofs.Run.Watch
/-!
How a run ends when something is closed in the middle of it: what counts is the act in which it was
closed, the calls of the turn that are still to come, and the turns that are left.
-/
set_option autoImplicit false

namespace ReasonAct.Run

/-- The calls of the current turn that are not answered yet. -/
def pendingStep (calls : List ToolCall) : Act → List ToolCall
  | .asked _ (.ok r) => r.calls
  | .asked _ (.error _) => []
  | .answered _ _ => calls.tail
  | _ => calls

def pending (acts : List Act) : List ToolCall := acts.foldl pendingStep []

/-- How a run ends that cannot ask the model any more. -/
def cutShort (max : Nat) (hasTools : Bool) (acts : List Act) : RunStatus × Option ErrorCode :=
  if hasTools && !(pending acts).isEmpty then (.error, some .invalidState)
  else if (Act.requests acts).length < max then (.aborted, none)
  else (.maxIterations, none)

/-- How a run ends when something is closed in its act `x`. -/
def verdict (max : Nat) (hasTools : Bool) (before : List Act) (x : Act) :
    RunStatus × Option ErrorCode :=
  match x with
  | .asked _ (.error e) => (.error, some e.code)
  | .asked _ (.ok r) =>
    if isFinal r then (.success, none)
    else if !r.hasToolCalls then (.maxIterations, none)
    else cutShort max hasTools (before ++ [x])
  | _ => cutShort max hasTools (before ++ [x])

theorem cutShort_pending {max : Nat} {acts : List Act} (h : pending acts ≠ []) :
    cutShort max true acts = (.error, some .invalidState) := by
  simp [cutShort,h]

theorem cutShort_done {max : Nat} {hasTools : Bool} {acts : List Act}
    (h : hasTools = true → pending acts = []) : cutShort max hasTools acts =
      if (Act.requests acts).length < max then (.aborted, none) else (.maxIterations, none) := by
  cases hasTools with
  | true => simp [cutShort,h]
  | false => rfl

section Pending

variable {calls : List ToolCall} {acts : List Act}

theorem foldl_pending (hs : ∀ y ∈ acts, y.Served) (hn : Act.requests acts = []) :
    acts.foldl pendingStep calls = calls.drop (Act.outputs acts).length := by
  induction acts generalizing calls with
  | nil => rfl
  | cons x acts ih =>
    have hx := hs x (by simp)
    have hs' : ∀ y ∈ acts, y.Served := fun y hy => hs y (by simp [hy])
    cases x with
    | asked request outcome => simp at hn
    | answered call outcome =>
      cases outcome with
      | error e => exact absurd hx id
      | ok output =>
        have ih : acts.foldl pendingStep calls.tail = _ := ih hs' (by simpa using hn)
        simp only [List.foldl_cons,pendingStep]
        rw [ih]
        simp [Nat.add_comm]
    | _ =>
      simp only [List.foldl_cons,pendingStep]
      rw [ih hs' (by simpa using hn)]
      simp

theorem outputs_quiet {released : Error} (h : ∀ y ∈ acts, y.Quiet true released) :
    Act.outputs acts = [] := by
  refine List.filterMap_eq_nil_iff.mpr ?_
  intro y hy
  have hq := h y hy
  cases y with
  | answered call outcome =>
    obtain rfl : outcome = .error released := by simpa [Act.Quiet] using hq
    rfl
  | _ => rfl

theorem requests_quiet {hasTools : Bool} {released : Error}
    (h : ∀ y ∈ acts, y.Quiet hasTools released) : Act.requests acts = [] := by
  refine List.filterMap_eq_nil_iff.mpr ?_
  intro y hy
  have hq := h y hy
  cases y with
  | asked request outcome => exact absurd hq id
  | _ => rfl

end Pending

section Split

variable {max : Nat} {hasTools : Bool} {released : Error} {before after : List Act} {x : Act}

theorem split_behind (xs : List Act) {ys : List Act} (h : xs ++ ys = before ++ x :: after)
    (hx : ∀ y ∈ xs, ¬ y.CanClose hasTools) (hc : x.CanClose hasTools) :
    ∃ rest, before = xs ++ rest ∧ ys = rest ++ x :: after := by
  induction xs generalizing before with
  | nil => exact ⟨before,rfl,h⟩
  | cons y xs ih =>
    cases before with
    | nil =>
      obtain ⟨rfl,-⟩ := List.cons.inj h
      exact absurd hc (hx y (by simp))
    | cons z before =>
      obtain ⟨rfl,htail⟩ := List.cons.inj h
      obtain ⟨rest,rfl,hrest⟩ := ih htail fun z hz => hx z (by simp [hz])
      exact ⟨rest,rfl,hrest⟩

/-- In a turn that was answered, the calls that are pending at the closing are those that are never
served. -/
theorem pending_turn {n : UInt32} {request : ChatRequest} {r : ChatResponse} {tail : List Act}
    (h : .counted n :: .asked request (.ok r) :: tail = before ++ x :: after)
    (htail : Act.requests tail = []) (hx : x.CanClose hasTools) (hb : ∀ y ∈ before, y.Served)
    (ha : ∀ y ∈ after, y.Quiet hasTools released) (pre : List Act) :
    (x = .asked request (.ok r) ∨ ∃ call output, x = .answered call (.ok output)) ∧
      (Act.requests (pre ++ before ++ [x])).length = (Act.requests pre).length + 1 ∧
      (hasTools = true → pending (pre ++ before ++ [x]) = r.calls.drop (Act.outputs tail).length) := by
  obtain ⟨rest,rfl,hasked⟩ := split_behind [.counted n] h (by simp [Act.CanClose]) hx
  cases rest with
  | nil =>
    obtain ⟨rfl,rfl⟩ := List.cons.inj hasked
    refine ⟨.inl rfl,by simp,?_⟩
    intro ht
    subst ht
    rw [outputs_quiet ha]
    simp [pending,pendingStep]
  | cons y rest =>
    obtain ⟨rfl,heq⟩ := List.cons.inj hasked
    have heq : tail = rest ++ x :: after := heq
    rw [heq] at htail ⊢
    have hnone : Act.requests rest = [] ∧ Act.requests [x] = [] := by simp_all
    cases x with
    | asked request outcome => simp at hnone
    | answered call outcome =>
      cases outcome with
      | error e => exact absurd hx id
      | ok output =>
        refine ⟨.inr ⟨call,output,rfl⟩,by simp [hnone.1],?_⟩
        intro ht
        subst ht
        have hserved : ∀ y ∈ rest ++ [.answered call (.ok output)], y.Served := by
          intro y hy
          rcases List.mem_append.mp hy with hy | hy
          · exact hb y (by simp [hy])
          · exact List.mem_singleton.mp hy ▸ trivial
        have hfold : List.foldl pendingStep r.calls _ = _ :=
          foldl_pending hserved (by simp [hnone.1])
        have hsame : Act.outputs (rest ++ .answered call (.ok output) :: after) =
            Act.outputs (rest ++ [.answered call (.ok output)]) := by
          simp [outputs_quiet ha]
        rw [hsame,← hfold]
        simp [pending,pendingStep]
    | _ => exact absurd hx id

theorem verdict_turn {request : ChatRequest} {r : ChatResponse}
    (h : x = .asked request (.ok r) ∨ ∃ call output, x = .answered call (.ok output))
    (hfinal : isFinal r = false) (hcalls : r.hasToolCalls = true) :
    verdict max hasTools before x = cutShort max hasTools (before ++ [x]) := by
  rcases h with rfl | ⟨call,output,rfl⟩
  · simp [verdict,hfinal,hcalls]
  · rfl

section Course

variable (a : Profile) (tools : Option String)

theorem round_turn (p : Progress) (g : Round) : ∃ tail,
    g.acts a tools p =
      .counted (p.iterations + 1) :: .asked (request a g.askedAt tools p) (.ok g.response) :: tail ∧
    Act.requests tail = [] ∧ Act.outputs tail = g.answers := by
  refine ⟨_,rfl,?_,?_⟩
  · simp [toldActs]
  · simp [toldActs,Round.answers,List.map_eq_flatMap,Prod.map]

theorem over_of_quiet {e : Ending} {now : Instant} {gs : List Round} {p : Progress}
    (hn : Act.requests (actsFrom a tools e now gs p) = []) :
    gs = [] ∧ (e = .exhausted ∨ e = .aborted) := by
  cases gs with
  | cons g gs => simp [actsFrom,requests_round] at hn
  | nil =>
    refine ⟨rfl,?_⟩
    cases e with
    | exhausted => exact .inl rfl
    | aborted => exact .inr rfl
    | broken g b => simp [actsFrom,Ending.acts,requests_round] at hn
    | _ => simp [actsFrom,Ending.acts,heardActs] at hn

theorem asked_of_closing {n : UInt32} {request : ChatRequest}
    {outcome : Except ProviderError ChatResponse} {acts : List Act}
    (h : x ∈ .counted n :: .asked request outcome :: acts) (hx : x.CanClose hasTools)
    (hacts : ∀ y ∈ acts, ¬ y.CanClose hasTools) : x = .asked request outcome := by
  rcases List.mem_cons.mp h with rfl | h
  · exact absurd hx id
  rcases List.mem_cons.mp h with rfl | h
  · rfl
  · exact absurd hx (hacts x h)

theorem broken_verdict {g : Round} {call : ToolCall} {e : Error} {p : Progress} {last : Event}
    (h : g.acts a tools p ++ [.answered call (.error e)] ++ [.published last] =
      before ++ x :: after) (hpossible : (Ending.broken g (.unanswered call e)).Possible)
    (hx : x.CanClose hasTools) (hb : ∀ y ∈ before, y.Served)
    (ha : ∀ y ∈ after, y.Quiet hasTools released) (hcode : released.code = .invalidState)
    (pre : List Act) : (.error, some e.code) = verdict max hasTools (pre ++ before) x := by
  obtain ⟨tail,hturn,htail,houts⟩ := round_turn a tools p g
  obtain ⟨hfinal,hcall⟩ := hpossible
  have hlt : g.outputs.length < g.response.calls.length := (List.getElem?_eq_some_iff.mp hcall).1
  have hcalls : g.response.hasToolCalls = true := by
    rw [ChatResponse.hasToolCalls_eq]
    cases hr : g.response.calls with
    | nil => simp [hr] at hlt
    | cons => rfl
  simp only [hturn,List.cons_append,List.append_assoc] at h
  obtain ⟨hkind,-,hpending⟩ := pending_turn h (by simp [htail]) hx hb ha pre
  have hmem : .answered call (.error e) ∈ before ++ x :: after := h ▸ by simp
  obtain ⟨rfl,rfl⟩ : hasTools = true ∧ e = released := by
    rcases List.mem_append.mp hmem with hm | hm
    · exact absurd (hb _ hm) id
    rcases List.mem_cons.mp hm with rfl | hm
    · exact absurd hx id
    · have hq := ha _ hm
      cases hasTools with
      | true => exact ⟨rfl,by simpa [Act.Quiet] using hq⟩
      | false => simp [Act.Quiet] at hq
  have hleft : pending (pre ++ before ++ [x]) ≠ [] := by
    rw [hpending rfl]
    intro hnil
    have hle := List.drop_eq_nil_iff.mp hnil
    simp [houts,Round.answers,Round.results] at hle
    omega
  rw [verdict_turn hkind hfinal hcalls,cutShort_pending hleft,hcode]

theorem ending_verdict {e : Ending} {now : Instant} {p : Progress}
    (h : e.acts a tools p ++ [.published (finished a now (e.result a p))] =
      before ++ x :: after) (hpossible : e.Possible) (hx : x.CanClose hasTools)
    (hb : ∀ y ∈ before, y.Served) (ha : ∀ y ∈ after, y.Quiet hasTools released)
    (hcode : released.code = .invalidState) (htaken : e.refused = none) (pre : List Act) :
    (e.status, e.error.map Error.code) = verdict max hasTools (pre ++ before) x := by
  have hmem : x ∈ e.acts a tools p ++ [.published (finished a now (e.result a p))] := by
    rw [h]
    simp
  cases e with
  | exhausted =>
    rcases (by simpa [Ending.acts] using hmem : x = _ ∨ x = _) with rfl | rfl <;> exact absurd hx id
  | aborted =>
    obtain rfl : x = _ := by simpa [Ending.acts] using hmem
    exact absurd hx id
  | unreached e askedAt =>
    obtain rfl := asked_of_closing hmem hx (by simp [Act.CanClose])
    rfl
  | silent r =>
    obtain rfl := asked_of_closing hmem hx (by simp [Act.CanClose])
    simp [verdict,hpossible.1,hpossible.2]
  | final r =>
    obtain rfl := asked_of_closing hmem hx (by simp [Act.CanClose])
    have hfinal : isFinal r.response = true := hpossible
    simp [verdict,hfinal]
  | unspoken r x => contradiction
  | broken g b =>
    cases b with
    | untold call output x => contradiction
    | unanswered call e => exact broken_verdict a tools h hpossible hx hb ha hcode pre

theorem round_verdict {e : Ending} {now : Instant} {g : Round} {gs : List Round} {p : Progress}
    {left : Nat}
    (hg : g.Complete) (h : g.acts a tools p = before ++ x :: after)
    (hquiet : ∀ y ∈ actsFrom a tools e now gs (g.after p), y.Quiet hasTools released)
    (hbound : (g :: gs).length ≤ left) (hexhausted : e = .exhausted ↔ (g :: gs).length = left)
    (hx : x.CanClose hasTools) (hb : ∀ y ∈ before, y.Served)
    (ha : ∀ y ∈ after, y.Quiet hasTools released) (pre : List Act)
    (hmax : max = (Act.requests pre).length + left) :
    (e.status, e.error.map Error.code) = verdict max hasTools (pre ++ before) x := by
  obtain ⟨rfl,hover⟩ := over_of_quiet a tools (requests_quiet hquiet)
  obtain ⟨tail,hturn,htail,houts⟩ := round_turn a tools p g
  obtain ⟨hkind,hcount,hpending⟩ := pending_turn (hturn.symm.trans h) htail hx hb ha pre
  have hdone : hasTools = true → pending (pre ++ before ++ [x]) = [] := by
    intro ht
    rw [hpending ht,houts]
    simp [Round.answers,Round.results,hg.all]
  rw [verdict_turn hkind hg.goesOn hg.calls,cutShort_done hdone,hcount]
  rcases hover with rfl | rfl
  · have hleft : 1 = left := hexhausted.mp rfl
    have hn : ¬ (Act.requests pre).length + 1 < max := by omega
    rw [if_neg hn]
    rfl
  · have hleft : 1 ≠ left := fun heq => Ending.noConfusion (hexhausted.mpr heq)
    have hle : 1 ≤ left := hbound
    have hn : (Act.requests pre).length + 1 < max := by omega
    rw [if_pos hn]
    rfl

theorem rounds_verdict {e : Ending} {now : Instant} {gs : List Round} {p : Progress} {left : Nat}
    (h : actsFrom a tools e now gs p = before ++ x :: after)
    (hcomplete : ∀ g ∈ gs, g.Complete) (hpossible : e.Possible)
    (hbound : gs.length ≤ left) (hexhausted : e = .exhausted ↔ gs.length = left)
    (hx : x.CanClose hasTools) (hb : ∀ y ∈ before, y.Served)
    (ha : ∀ y ∈ after, y.Quiet hasTools released) (hcode : released.code = .invalidState)
    (htaken : e.refused = none) (pre : List Act)
    (hmax : max = (Act.requests pre).length + left) :
    (e.status, e.error.map Error.code) = verdict max hasTools (pre ++ before) x := by
  induction gs generalizing p before pre left with
  | nil => exact ending_verdict a tools h hpossible hx hb ha hcode htaken pre
  | cons g gs ih =>
    have hsum : (Act.requests (pre ++ g.acts a tools p)).length =
        (Act.requests pre).length + 1 := by simp [requests_round]
    have hlater (as : List Act) (hbefore : before = g.acts a tools p ++ as)
        (hrest : actsFrom a tools e now gs (g.after p) = as ++ x :: after) :
        (e.status, e.error.map Error.code) = verdict max hasTools (pre ++ before) x := by
      have hlen : gs.length ≤ left - 1 ∧ (gs.length + 1 = left ↔ gs.length = left - 1) ∧
          max = (Act.requests (pre ++ g.acts a tools p)).length + (left - 1) := by
        simp only [List.length_cons] at hbound
        omega
      have hv := ih hrest (fun g hm => hcomplete g (by simp [hm])) hlen.1
        (hexhausted.trans hlen.2.1) (fun y hy => hb y (by simp [hbefore,hy])) _ hlen.2.2
      rw [hv,hbefore,List.append_assoc]
    rcases List.append_eq_append_iff.mp h with ⟨as,hbefore,hrest⟩ | ⟨bs,hround,hrest⟩
    · exact hlater as hbefore hrest
    cases bs with
    | nil => exact hlater [] (by simpa using hround.symm) hrest.symm
    | cons y bs =>
      obtain ⟨rfl,rfl⟩ := List.cons.inj hrest
      have hquiet : ∀ z ∈ actsFrom a tools e now gs (g.after p), z.Quiet hasTools released :=
        fun z hz => ha z (by simp [hz])
      exact round_verdict a tools (hcomplete g (by simp)) hround hquiet hbound hexhausted hx hb
        (fun z hz => ha z (by simp [hz])) pre hmax

end Course
end Split

variable {σ : Type} {c : Collaborators σ} {Good : σ → Prop} {closed : σ → Bool} {hasTools : Bool}
  {released : Error}

/-- From the act in which something was closed it follows how the run ends, unless a message is not
recorded. Nothing is called any more. -/
theorem run_closing (h : c.Closes Good closed hasTools released)
    (hcode : released.code = .invalidState) (a : Profile) (input : String) {s : σ}
    (hs : Good s) (hopen : closed s = false) {result : RunResult}
    (hr : (run c a input s).1 = .ok result) {before after : List Act} {x : Act}
    (hw : watch c closed a input s = .closed before x after) :
    trace c a input s = before ++ x :: after ∧ x.CanClose hasTools ∧
      (∀ y ∈ after, y.Quiet hasTools released) ∧
      (Act.refused (trace c a input s) = [] →
        (result.status, result.error) = verdict a.maxIterations.toNat hasTools before x) := by
  obtain ⟨-,⟨hb,hx,ha⟩,-⟩ := hw ▸ watch_lawful h a input hs hopen
  have htrace : before ++ x :: after = trace c a input s := by
    have hacts := (run_watched c closed a input s).2
    rwa [hw] at hacts
  refine ⟨htrace.symm,hx,ha,?_⟩
  intro htaken
  rcases run_course_within c a input s hr with
    ⟨y,s₁,finishedAt,-,-,hcourse⟩ | ⟨o,s₁,-,hwithin,rfl,hcourse⟩
  · simp [hcourse,opening] at htaken
  have hrefused : o.ending.refused = none := by
    simpa [hcourse,opening,refused_course] using htaken
  have hsplit := (htrace.trans hcourse).symm
  rw [List.append_cons (opening a (c.clock (c.count 0 s)))] at hsplit
  obtain ⟨rest,rfl,hrest⟩ := split_behind _ hsplit (by simp [opening,Act.CanClose]) hx
  exact rounds_verdict a _ hrest o.complete o.possible hwithin.bound hwithin.exhausted hx
    (fun y hy => hb y (by simp [hy])) ha hcode hrefused _ (by simp [opening])

end ReasonAct.Run
