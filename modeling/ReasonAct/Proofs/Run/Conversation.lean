import Mathlib.Data.List.TakeWhile
import ReasonAct.Proofs.Run.Attached
import ReasonAct.Proofs.Run.Requests
import ReasonAct.Proofs.World.Solo
/-!
Runs one after the other over one memory that keeps everything. A model is shown the answers to all
the calls of the past, unless a run was ended by a response that also called tools: its calls are
remembered, but never answered.
-/
set_option autoImplicit false

namespace ReasonAct

/-- The tool messages that a list begins with. -/
def leadingResults (ms : List Message) : List Message := ms.takeWhile (·.role = .tool)

/-- Right behind every message of a model stand the answers to its calls, one each and in order. -/
def Answered : List Message → Prop
  | [] => True
  | m :: rest =>
    (m.role = .assistant → m.toolCalls ≠ [] →
      (leadingResults rest).map Message.toolCallId = m.toolCalls.map fun call => some call.id) ∧
      Answered rest

theorem leadingResults_append {xs ys : List Message} (h : leadingResults ys = []) :
    leadingResults (xs ++ ys) = leadingResults xs := by
  unfold leadingResults at *
  rw [List.takeWhile_append]
  split
  · rename_i hlen
    have hp : xs.takeWhile (·.role = .tool) <+: xs := List.takeWhile_prefix _
    rw [h,List.append_nil,hp.eq_of_length hlen]
  · rfl

theorem answered_append {xs ys : List Message} (h : leadingResults ys = []) :
    Answered (xs ++ ys) ↔ Answered xs ∧ Answered ys := by
  induction xs with
  | nil => simp [Answered]
  | cons x xs ih => simp [Answered,leadingResults_append h,ih,and_assoc]

namespace Run

@[simp] theorem leadingResults_spoken (r : Reply) (ms : List Message) :
    leadingResults (spoken r :: ms) = [] := by simp [leadingResults,spoken]

@[simp] theorem leadingResults_user (now : Instant) (input : String) (ms : List Message) :
    leadingResults (.user input now :: ms) = [] := by
  simp [leadingResults,Message.user,Message.plain]

theorem leadingResults_told (xs : List (ToolCall × Output)) :
    leadingResults (xs.map told) = xs.map told := by
  refine List.takeWhile_eq_self_iff.mpr ?_
  intro m hm
  obtain ⟨x,-,rfl⟩ := List.mem_map.mp hm
  simp [told]

theorem answered_told (xs : List (ToolCall × Output)) : Answered (xs.map told) := by
  induction xs with
  | nil => trivial
  | cons x xs ih => exact ⟨by simp [told],ih⟩

theorem answered_round {g : Round} (h : g.Complete) : Answered g.messages := by
  refine ⟨?_,answered_told g.results⟩
  intro _ _
  have hids : g.results.map Prod.fst = g.response.calls := List.map_fst_zip h.all.ge
  rw [leadingResults_told,List.map_map]
  change g.results.map (fun x => some x.1.id) = g.response.calls.map fun call => some call.id
  rw [← hids,List.map_map]
  rfl

theorem answered_rounds {gs : List Round} (h : ∀ g ∈ gs, g.Complete) :
    leadingResults (gs.flatMap Round.messages) = [] ∧ Answered (gs.flatMap Round.messages) := by
  induction gs with
  | nil => exact ⟨rfl,trivial⟩
  | cons g gs ih =>
    simp only [List.mem_cons,forall_eq_or_imp] at h
    obtain ⟨hfirst,hrest⟩ := ih h.2
    rw [List.flatMap_cons]
    exact ⟨by rw [leadingResults_append hfirst,Round.messages,leadingResults_spoken],
      (answered_append hfirst).mpr ⟨answered_round h.1,hrest⟩⟩

/-- A response that ends the run and calls tools all the same. -/
def CallsAtEnd (r : ChatResponse) : Prop := r.isStop = true ∧ r.hasToolCalls = true

theorem Round.Complete.not_callsAtEnd {g : Round} (h : g.Complete) : ¬ CallsAtEnd g.response := by
  rintro ⟨hstop,-⟩
  have hf := h.goesOn
  simp [isFinal,hstop] at hf

theorem Course.callsAtEnd_iff (o : Course) (a : Profile) (tools : Option String) (p : Progress) :
    (∀ r ∈ Act.responses (o.acts a tools p), ¬ CallsAtEnd r) ↔
      ∀ r ∈ o.ending.response?, ¬ CallsAtEnd r := by
  rw [responses_course]
  constructor
  · intro h r hr
    exact h r (List.mem_append_right _ (Option.mem_toList.mpr hr))
  · intro h r hr
    rcases List.mem_append.mp hr with hr | hr
    · obtain ⟨g,hg,rfl⟩ := List.mem_map.mp hr
      exact (o.complete g hg).not_callsAtEnd
    · exact h r (Option.mem_toList.mp hr)

theorem answered_spoken_iff (r : Reply) :
    Answered [spoken r] ↔ r.response.hasToolCalls = false := by
  have hcalls := r.response.hasToolCalls_eq
  cases hc : r.response.calls with
  | nil => simp_all [Answered,spoken]
  | cons call calls => simp_all [Answered,spoken,leadingResults]

theorem answered_ending_iff {e : Ending} (he : e.Possible)
    (hs : e.status = .success ∨ e.status = .maxIterations) :
    leadingResults e.messages = [] ∧
      (Answered e.messages ↔ ∀ r ∈ e.response?, ¬ CallsAtEnd r) := by
  cases e with
  | exhausted => exact ⟨rfl,by simp [Answered]⟩
  | silent r => exact ⟨rfl,by simpa [Answered,CallsAtEnd] using fun _ => he.2⟩
  | final r =>
    refine ⟨leadingResults_spoken r [],?_⟩
    have hf : isFinal r.response = true := he
    rw [Ending.messages,answered_spoken_iff]
    simp only [Ending.response?,Option.mem_some_iff, forall_eq',CallsAtEnd]
    cases hc : r.response.hasToolCalls with
    | false => simp
    | true => simpa [isFinal,hc] using hf
  | _ => simp at hs

structure Episode (σ : Type) where
  collaborators : Collaborators σ
  profile : Profile
  input : String
  state : σ

namespace Episode

variable {σ : Type} (e : Episode σ)

def outcome : Except Error RunResult × σ := run e.collaborators e.profile e.input e.state

def acts : List Act := trace e.collaborators e.profile e.input e.state

def Completes : Prop :=
  ∃ result, e.outcome.1 = .ok result ∧
    (result.status = .success ∨ result.status = .maxIterations)

/-- No response called tools and ended the run. -/
def Clean : Prop := ∀ r ∈ Act.responses e.acts, ¬ CallsAtEnd r

end Episode

variable {σ : Type}

/-- Each run finds the memory as the one before has left it. What else has changed between two runs
does not matter. -/
def Chained (memory : σ → Memory) (Quiet : σ → Prop) : Memory → List (Episode σ) → Prop
  | _, [] => True
  | m, e :: es => memory e.state = m ∧ Quiet e.state ∧ e.collaborators.Attached memory Quiet ∧
    e.Completes ∧ Chained memory Quiet (memory e.outcome.2) es

section Chain

variable {memory : σ → Memory} {Quiet : σ → Prop} {e : Episode σ}

theorem Episode.replays (h : e.collaborators.Attached memory Quiet) (hs : Quiet e.state) :
    Quiet e.outcome.2 ∧ (memory e.state).appendAll (Act.taken e.acts) = .ok (memory e.outcome.2) :=
  taken_replays h e.profile e.input hs

theorem Episode.course (h : e.collaborators.Attached memory Quiet) (hs : Quiet e.state)
    (hc : e.Completes) : ∃ (o : Course) (startedAt now : Instant),
      (o.ending.status = .success ∨ o.ending.status = .maxIterations) ∧
      e.acts = opening e.profile startedAt ++ .remembered (.user e.input now) (.ok ()) ::
        o.acts e.profile (e.collaborators.schema e.state)
          (heard (memory e.state).messages now e.input) := by
  obtain ⟨result,hr,hstatus⟩ := hc
  obtain ⟨startedAt,now,finishedAt,⟨x,rfl,-⟩ | ⟨o,rfl,htrace⟩⟩ := attached_course h hs hr
  · simp [unheard] at hstatus
  · exact ⟨o,startedAt,now,hstatus,htrace⟩

theorem Ending.left_eq {e : Ending} (hs : e.status = .success ∨ e.status = .maxIterations) :
    e.left = [] := by
  cases e with
  | broken g b => simp at hs
  | unspoken r x => simp at hs
  | _ => rfl

theorem Episode.adds (h : e.collaborators.Attached memory Quiet) (hs : Quiet e.state)
    (hc : e.Completes) (hm : (memory e.state).kind.Unbounded) : ∃ said,
      (memory e.outcome.2).messages = (memory e.state).messages ++ said ∧
      leadingResults said = [] ∧ (Answered said ↔ e.Clean) := by
  obtain ⟨o,startedAt,now,hstatus,hacts⟩ := e.course h hs hc
  obtain ⟨hfirst,hending⟩ := answered_ending_iff o.possible hstatus
  obtain ⟨-,hrounds⟩ := answered_rounds o.complete
  have htaken : Act.taken e.acts = .user e.input now ::
      (o.rounds.flatMap Round.messages ++ o.ending.messages) := by
    simp [hacts,opening,taken_course,Ending.left_eq hstatus]
  have happ := (e.replays h hs).2
  refine ⟨Act.taken e.acts,Memory.appendAll_unbounded hm happ,by simp [htaken],?_⟩
  have hclean : e.Clean ↔ ∀ r ∈ o.ending.response?, ¬ CallsAtEnd r := by
    rw [← o.callsAtEnd_iff e.profile (e.collaborators.schema e.state)
      (heard (memory e.state).messages now e.input)]
    simp [Episode.Clean,hacts,opening]
  rw [htaken,hclean,← hending]
  refine (and_iff_right (by simp [Message.user,Message.plain])).trans ?_
  rw [answered_append hfirst,and_iff_right hrounds]

theorem Episode.request_answered_iff (h : e.collaborators.Attached memory Quiet)
    (hs : Quiet e.state) (hc : e.Completes) {request : ChatRequest}
    (hr : request ∈ Act.requests e.acts) :
    Answered request.messages ↔ Answered (memory e.state).messages := by
  obtain ⟨o,startedAt,now,-,hacts⟩ := e.course h hs hc
  have hr : request ∈ Act.requests (actsFrom e.profile (e.collaborators.schema e.state) o.ending
      o.finishedAt o.rounds (heard (memory e.state).messages now e.input)) := by
    simpa [hacts,opening,Course.acts] using hr
  obtain ⟨done,askedAt,hdone,hmessages⟩ := request_of_course _ _ hr
  have hcomplete : ∀ g ∈ done, g.Complete := fun g hg => o.complete g (hdone.subset hg)
  obtain ⟨-,hanswered⟩ := answered_rounds hcomplete
  have hsplit : request.messages = (leading e.profile askedAt ++ (memory e.state).messages) ++
      .user e.input now :: done.flatMap Round.messages := by
    simp [hmessages,shown,heard]
  rw [hsplit,answered_append (leadingResults_user _ _ _)]
  cases hi : e.profile.instructions <;>
    simp [leading,hi,Answered,hanswered,Message.user,Message.system,Message.plain]

theorem answered_memory_iff {m : Memory} (hm : m.kind.Unbounded) {before after : List (Episode σ)}
    (h : Chained memory Quiet m (before ++ e :: after)) :
    Answered (memory e.state).messages ↔ Answered m.messages ∧ ∀ e ∈ before, e.Clean := by
  induction before generalizing m with
  | nil =>
    obtain ⟨rfl,-⟩ := h
    simp
  | cons first before ih =>
    -- The runs after the first start from what the first has added to the memory.
    obtain ⟨rfl,hs,hc,hdone,hrest⟩ := h
    obtain ⟨said,hsaid,hfirst,hanswered⟩ := first.adds hc hs hdone hm
    have hkind : (memory first.outcome.2).kind.Unbounded := by
      rwa [Memory.appendAll_kind (first.replays hc hs).2]
    rw [ih hkind hrest,hsaid,answered_append hfirst,hanswered]
    simp [and_assoc]

theorem Chained.here {m : Memory} {before after : List (Episode σ)}
    (h : Chained memory Quiet m (before ++ e :: after)) :
    Quiet e.state ∧ e.collaborators.Attached memory Quiet ∧ e.Completes := by
  induction before generalizing m with
  | nil => exact ⟨h.2.1,h.2.2.1,h.2.2.2.1⟩
  | cons first before ih => exact ih h.2.2.2.2

end Chain

/-- All calls are answered in a request exactly when no earlier run was ended by a response that
also called tools. -/
theorem requests_answered_iff (memory : σ → Memory) (Quiet : σ → Prop)
    (before : List (Episode σ)) (e : Episode σ) (after : List (Episode σ))
    (h : Chained memory Quiet (.empty (.kept 0)) (before ++ e :: after))
    (request : ChatRequest) (hr : request ∈ Act.requests e.acts) :
    Answered request.messages ↔ ∀ e ∈ before, e.Clean := by
  obtain ⟨hs,hc,hdone⟩ := h.here
  rw [e.request_answered_iff hc hs hdone hr,answered_memory_iff (m := .empty (.kept 0)) rfl h]
  simp [Memory.empty,Answered]

section Examples

open World

variable (outcomes : List (Except ProviderError ChatResponse))

private def once : Episode World :=
  ⟨soloReach (.kept 0) outcomes, soloProfile, "one", solo (.kept 0) outcomes⟩

private def again : Episode World :=
  { once outcomes with input := "two", state := (once outcomes).outcome.2 }

private theorem again_chained (h₁ : (once outcomes).Completes) (h₂ : (again outcomes).Completes) :
    Chained (memoryAt 0) (World.Spares 0) (.empty (.kept 0)) [once outcomes, again outcomes] := by
  have hc := soloReach_attached (.kept 0) outcomes
  have hs := solo_spares (.kept 0) outcomes
  have hnext : World.Spares 0 (again outcomes).state := ((once outcomes).replays hc hs).1
  exact ⟨rfl,hs,hc,h₁,rfl,hnext,hc,h₂,trivial⟩

private theorem Episode.completes {σ : Type} {e : Episode σ}
    (h : e.outcome.1.toOption.map RunResult.status = some .success) : e.Completes := by
  cases hr : e.outcome.1 with
  | error x => simp [hr,Except.toOption] at h
  | ok result => exact ⟨result,hr,.inl (by simpa [hr,Except.toOption] using h)⟩

private def calledFirst : List (Except ProviderError ChatResponse) :=
  [.ok (.toolUse [⟨"a", "echo", "1"⟩]), .ok (.stop "done"), .ok (.stop "again")]

private def calledAtEnd : List (Except ProviderError ChatResponse) :=
  [.ok { ChatResponse.stop "done" with toolCalls := [⟨"a", "echo", "1"⟩] }, .ok (.stop "again")]

theorem requests_answered_next_run :
    (Act.requests (again calledFirst).acts).length = 1 ∧
      ∀ request ∈ Act.requests (again calledFirst).acts, Answered request.messages := by
  refine ⟨by decide +kernel,fun request hr => ?_⟩
  have hchain := again_chained calledFirst (Episode.completes (by decide +kernel))
    (Episode.completes (by decide +kernel))
  refine (requests_answered_iff _ _ [once calledFirst] _ [] hchain request hr).mpr ?_
  rw [List.forall_mem_singleton]
  have hresponses : Act.responses (once calledFirst).acts =
      [.toolUse [⟨"a", "echo", "1"⟩], .stop "done"] := by decide +kernel
  rw [Episode.Clean,hresponses]
  simp [CallsAtEnd,ChatResponse.isStop,ChatResponse.hasToolCalls,ChatResponse.toolUse,
    ChatResponse.stop,ChatResponse.empty]

/-- A response that stops and calls leaves a call without an answer in the next request. -/
theorem calls_at_end_unanswered :
    Chained (memoryAt 0) (World.Spares 0) (.empty (.kept 0))
        [once calledAtEnd, again calledAtEnd] ∧
      ∃ messages ∈ (Act.requests (again calledAtEnd).acts).map ChatRequest.messages,
        ¬ Answered messages := by
  have hrequests : (Act.requests (again calledAtEnd).acts).map ChatRequest.messages =
      [[.system "Be terse." default, .user "one" default,
        spoken ⟨{ ChatResponse.stop "done" with toolCalls := [⟨"a", "echo", "1"⟩] },
          default, default, default⟩, .user "two" default]] := by decide +kernel
  refine ⟨again_chained _ (Episode.completes (by decide +kernel))
    (Episode.completes (by decide +kernel)),_,hrequests ▸ List.mem_singleton_self _,?_⟩
  intro h
  have hcall := h.2.2.1 rfl (by decide)
  cases hcall

end Examples

end Run
end ReasonAct
