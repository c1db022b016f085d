import ReasonAct.Proofs.Run.Course
import ReasonAct.Proofs.World.Solo
set_option autoImplicit false

namespace ReasonAct.Run

/-- What may stand behind the last full round. -/
inductive Tail where
  | nothing
  | final (r : Reply)
  | unfinished (g : Round)

namespace Tail

def messages : Tail → List Message
  | .nothing => []
  | .final r => [spoken r]
  | .unfinished g => g.messages

def responses : Tail → List ChatResponse
  | .nothing => []
  | .final r => [r.response]
  | .unfinished g => [g.response]

def answers : Tail → List (ToolCall × String)
  | .unfinished g => g.answers
  | _ => []

/-- A final answer stands in the transcripts of successes, and only there. An unfinished round is
left by an error. -/
def Fits : RunStatus → Tail → Prop
  | .success, .final r => isFinal r.response = true
  | .maxIterations, .nothing | .aborted, .nothing | .error, .nothing => True
  | .error, .unfinished g =>
    isFinal g.response = false ∧ g.outputs.length < g.response.calls.length
  | _, _ => False

end Tail

/-- The messages of a result are put together from the responses and the outputs that passed. -/
structure Grammatical (now : Instant) (input : String) (acts : List Act) (result : RunResult)
    (rounds : List Round) (tail : Tail) : Prop where
  messages : result.messages =
    .user input now :: (rounds.flatMap Round.messages ++ tail.messages)
  full : ∀ g ∈ rounds, g.response.calls ≠ [] ∧ g.outputs.length = g.response.calls.length
  fits : tail.Fits result.status
  responses : rounds.map (·.response) ++ tail.responses <+: Act.responses acts
  answers : rounds.flatMap Round.answers ++ tail.answers <+: Act.outputs acts

def Ending.tail : Ending → Tail
  | .final r => .final r
  | .broken g _ => .unfinished g
  | _ => .nothing

theorem Ending.messages_tail (e : Ending) : e.tail.messages = e.messages := by cases e <;> rfl

theorem Ending.answers_tail (e : Ending) : e.tail.answers = e.answers := by cases e <;> rfl

theorem Ending.responses_tail (e : Ending) : e.tail.responses <+: e.response?.toList := by
  cases e <;> simp [Ending.tail,Tail.responses]

theorem Ending.tail_fits {e : Ending} (h : e.Possible) : e.tail.Fits e.status := by
  cases e with
  | final r => exact h
  | broken g b => exact ⟨h.1,(List.getElem?_eq_some_iff.mp h.2).1⟩
  | _ => trivial

theorem Round.Complete.full {g : Round} (h : g.Complete) :
    g.response.calls ≠ [] ∧ g.outputs.length = g.response.calls.length := by
  refine ⟨?_,h.all⟩
  intro hn
  have hc := h.calls
  rw [ChatResponse.hasToolCalls_eq,hn] at hc
  simp at hc

theorem course_grammatical {a : Profile} {acts : List Act} {now startedAt : Instant}
    {input : String} {past : List Message} {tools : Option String} (o : Course)
    (h : acts = opening a startedAt ++ .remembered (.user input now) (.ok ()) ::
      o.acts a tools (heard past now input)) :
    Grammatical now input acts (o.result a (heard past now input)) o.rounds o.ending.tail where
  messages := by
    simp [Course.result,Ending.result,transcript_rounds,heard,o.ending.messages_tail]
  full g hg := (o.complete g hg).full
  fits := Ending.tail_fits o.possible
  responses := by
    rw [h]
    simpa [opening,responses_course] using o.ending.responses_tail
  answers := by
    rw [h]
    simp [opening,outputs_course,o.ending.answers_tail]

variable {σ : Type}

theorem transcript_grammar (c : Collaborators σ) (a : Profile) (input : String) (s : σ)
    (hb : Text.blank input = false) (hs : c.isShutDown s = false) :
    let now := c.clock (opened c a s)
    ∃ result, (run c a input s).1 = .ok result ∧
      match (record c (.user input now) (start (c.history (opened c a s))) (opened c a s)).1 with
      | .error _ => result.messages = [] ∧ result.status = .error
      | .ok _ => ∃ rounds tail, Grammatical now input (trace c a input s) result rounds tail := by
  intro now
  obtain ⟨result,h⟩ := run_ok_iff.mpr ⟨hb,hs⟩
  refine ⟨result,h,?_⟩
  rcases run_course c a input s h with ⟨x,s₁,finishedAt,hm,rfl,-⟩ | ⟨o,s₁,hm,rfl,htrace⟩
  · rw [hm]
    exact ⟨rfl,rfl⟩
  · rw [hm]
    exact ⟨o.rounds,o.ending.tail,course_grammatical o htrace⟩

open World in
theorem transcript_grammar_interrupted :
    let outcomes := [.ok (.toolUse [⟨"a", "echo", "1"⟩, ⟨"b", "echo", "2"⟩])]
    let c := soloReach (.failing 3) outcomes
    let w := solo (.failing 3) outcomes
    Text.blank "hi" = false ∧ c.isShutDown w = false ∧
    ∃ result, (run c soloProfile "hi" w).1 = .ok result ∧ result.messages.length = 3 ∧
      ∃ rounds tail,
        Grammatical default "hi" (trace c soloProfile "hi" w) result rounds tail := by
  intro outcomes c w
  have hb : Text.blank "hi" = false := by decide
  obtain ⟨result,hr,hgrammar⟩ := transcript_grammar c soloProfile "hi" w hb rfl
  refine ⟨hb,rfl,result,hr,?_,hgrammar⟩
  cases hr
  rfl

open World in
/-- A memory that refuses the input itself leaves a run without any transcript. -/
theorem refused_input_not_grammatical :
    ∃ result, (World.run 0 "hi" (solo (.failing 0) [.ok (.stop "hello")])).1 = .ok result ∧
      ∀ now acts rounds tail, ¬ Grammatical now "hi" acts result rounds tail := by
  refine ⟨_,rfl,?_⟩
  intro now acts rounds tail h
  have hm := h.messages
  cases hm

end ReasonAct.Run
