import ReasonAct.Proofs.Run.Accounting
import ReasonAct.Proofs.Run.Decisive
import ReasonAct.Proofs.Run.Requests
/-!
What the observers of a run are told. The events retell the exchanges with the model and the tools,
turn by turn, between one event for the beginning of the run and one for its end. The events of
tools are those of the tool messages in the transcript, unless the last of them was not recorded.
-/
set_option autoImplicit false

namespace ReasonAct

inductive Exchange where
  | response (r : ChatResponse)
  | output (x : ToolCall × String)

@[simp] def Exchange.response? : Exchange → Option ChatResponse
  | .response r => some r
  | .output _ => none

namespace Act

@[simp] def published? : Act → Option Event
  | .published e => some e
  | _ => none

@[simp] def exchange? : Act → Option Exchange
  | .asked _ (.ok r) => some (.response r)
  | .answered call (.ok output) => some (.output (call, output))
  | _ => none

abbrev publications : List Act → List Event := view published?
abbrev exchanges : List Act → List Exchange := view exchange?

theorem responses_eq (acts : List Act) :
    responses acts = (exchanges acts).filterMap Exchange.response? := by
  rw [exchanges,view,List.filterMap_filterMap]
  refine List.filterMap_congr fun x _ => ?_
  cases x with
  | asked request o => cases o <;> rfl
  | answered call o => cases o <;> rfl
  | _ => rfl

end Act

def Event.tokens? : Event → Option UInt64
  | .llmResponded _ _ _ tokens _ => some tokens
  | _ => none

def Event.isExecution : Event → Bool
  | .toolExecuted _ _ _ _ => true
  | _ => false

namespace Run

def Round.exchanges (g : Round) : List Exchange := .response g.response :: g.answers.map .output

def Round.events (a : Profile) (x : Round × Nat) : List Event :=
  .llmResponded a.name (UInt32.ofNat x.2) x.1.response.finishReason x.1.response.usage.total
      x.1.heardAt ::
    x.1.results.map executed

def toolMessages (ms : List Message) : List Message := ms.filter (·.role = .tool)

/-- The events of a run retell its turns, and agree with its transcript and its result. -/
structure Narrated (a : Profile) (acts : List Act) (result : RunResult) (turns : List Round) :
    Prop where
  exchanges : Act.exchanges acts = turns.flatMap Round.exchanges
  /-- The outputs of a turn are those of its first calls. -/
  answered : ∀ g ∈ turns, g.outputs.length ≤ g.response.calls.length
  numbered : turns.length ≤ a.maxIterations.toNat
  events : ∃ startedAt finishedAt, Act.publications acts =
    .runStarted a.name a.sessionId startedAt :: ((turns.zipIdx 1).flatMap (Round.events a) ++
      [.runFinished a.name result.status result.iterations result.totalTokens finishedAt])
  executions : (Act.publications acts).filter Event.isExecution =
    (turns.flatMap Round.results).map executed
  messages : (turns.flatMap Round.results).map told =
    toolMessages result.messages ++ toolMessages ((Act.refused acts).map Prod.fst)
  refusedOnce : (Act.refused acts).length ≤ 1

/-- The turn in which the run ends, if the model answered in it. -/
def Ending.turn? : Ending → Option Round
  | .exhausted | .aborted | .unreached _ _ => none
  | .silent r | .final r | .unspoken r _ => some ⟨r, []⟩
  | .broken g (.unanswered _ _) => some g
  | .broken g (.untold _ output _) => some ⟨g.toReply, g.outputs ++ [output]⟩

def Course.turns (o : Course) : List Round := o.rounds ++ o.ending.turn?.toList

section Acts

variable (a : Profile) (tools : Option String)

@[simp] theorem exchanges_refusal (x : Refusal) (m : Message) : Act.exchanges (x.acts m) = [] := by
  cases x <;> rfl

@[simp] theorem publications_refusal (x : Refusal) (m : Message) :
    Act.publications (x.acts m) = [] := by cases x <;> rfl

theorem tokens_events (turns : List Round) (n : Nat) :
    ((turns.zipIdx n).flatMap (Round.events a)).filterMap Event.tokens? =
      turns.map fun g => g.response.usage.total := by
  induction turns generalizing n with
  | nil => rfl
  | cons g turns ih => simp [Round.events,Event.tokens?,executed,Function.comp_def,ih]

end Acts

theorem responses_turns (turns : List Round) :
    (turns.flatMap Round.exchanges).filterMap Exchange.response? = turns.map (·.response) := by
  induction turns with
  | nil => rfl
  | cons g turns ih => simp [Round.exchanges,Function.comp_def,ih]

theorem Narrated.tokens {a : Profile} {acts : List Act} {result : RunResult} {turns : List Round}
    (h : Narrated a acts result turns) :
    (Act.publications acts).filterMap Event.tokens? = (spent acts).map Usage.total := by
  obtain ⟨startedAt,finishedAt,hevents⟩ := h.events
  rw [hevents,spent,Act.responses_eq,h.exchanges,responses_turns]
  simp [Event.tokens?,List.filterMap_cons,tokens_events,Function.comp_def]

variable {σ : Type}

open World

section Beyond

private def halves : List (Except ProviderError ChatResponse) :=
  let usage := { Usage.zero with totalTokens := 9223372036854775808 }
  [.ok { ChatResponse.toolUse [⟨"a", "echo", "1"⟩] with usage },
    .ok { ChatResponse.stop "done" with usage }]

private def short : World := { solo (.kept 0) halves with
  room := fun store n => store ≠ .history || n < 2 }

end Beyond

end Run
end ReasonAct
