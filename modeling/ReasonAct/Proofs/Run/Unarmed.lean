import ReasonAct.Proofs.Chat.Payload
import ReasonAct.Proofs.Run.Requests
import ReasonAct.Proofs.Run.Transcript
set_option autoImplicit false

namespace ReasonAct

variable {σ : Type} {c : Collaborators σ}

structure Collaborators.Unarmed (c : Collaborators σ) : Prop where
  schema : ∀ s, c.schema s = none
  answer : ∀ call s, (c.answer call s).1 = .ok (Run.notFound call.name)

namespace Run

def missing (call : ToolCall) (now : Instant) : Message :=
  ⟨.tool, some (notFound call.name), [.toolResult call.id (notFound call.name) true], some call.id,
    [], now⟩

theorem told_notFound {call : ToolCall} {o : Output} (h : o.text = notFound call.name) :
    told (call, o) = missing call o.toldAt := by
  simp [told,missing,h,notFound,isErrorPayload_errorPayload]

/-- A response, and for its calls, one after the other, that there is no such tool. Each time is the
stamp of one message. -/
def inVain (r : Reply) (times : List Instant) : List Message :=
  spoken r :: r.response.calls.zipWith missing times

/-- In a run without tools no request shows any, and every call is answered alike. -/
structure Vain (now : Instant) (input : String) (acts : List Act)
    (outcome : Except Error RunResult) : Prop where
  shown : ∀ request ∈ Act.requests acts, request.tools = none
  answered : ∀ call outcome, .answered call outcome ∈ acts → outcome = .ok (notFound call.name)
  messages : ∀ result, outcome = .ok result → result.messages = [] ∨ ∃ rounds tail,
    Grammatical now input acts result rounds tail ∧
      (∀ g ∈ rounds, ∃ times : List Instant, times.length = g.response.calls.length ∧
        g.messages = inVain g.toReply times) ∧
      ∀ g, tail = .unfinished g → ∃ times, g.messages = inVain g.toReply times

theorem messages_vain {g : Round} (h : ∀ x ∈ g.results, x.2.text = notFound x.1.name) :
    g.messages = inVain g.toReply (g.outputs.map Output.toldAt) := by
  unfold Round.messages inVain
  rw [List.zipWith_map_right,List.map_congr_left fun x hx => told_notFound (h x hx),Round.results,
    ← List.map_uncurry_zip_eq_zipWith]
  rfl

theorem answered_of_output {x : Act} {y : ToolCall × String} (h : x.output? = some y) :
    x = .answered y.1 (.ok y.2) := by
  unfold Act.output? at h
  split at h
  · obtain rfl := Option.some.inj h
    rfl
  · contradiction

theorem trace_of_error {a : Profile} {input : String} {s : σ} {e : Error}
    (h : (run c a input s).1 = .error e) : trace c a input s = [] := by
  cases hs : c.isShutDown s with
  | true => exact (run_of_shutDown hs a input).2
  | false =>
    cases hb : Text.blank input with
    | true => simp [trace,run,hb]
    | false =>
      obtain ⟨result,hr⟩ := run_ok_iff.mpr ⟨hb,hs⟩
      cases h.symm.trans hr

section Unarmed

variable (h : c.Unarmed) (a : Profile) (input : String) (s : σ)

include h

theorem answered_unarmed : ∀ call outcome,
    .answered call outcome ∈ trace c a input s → outcome = .ok (notFound call.name) := by
  have hpreserves : c.observed.Preserves fun x => ∀ call outcome,
      .answered call outcome ∈ x.2 → outcome = .ok (notFound call.name) :=
    { chat := by
        intro x hx request call outcome hmem
        exact hx call outcome (by simpa [Collaborators.observed] using hmem)
      answer := by
        intro x hx call' call outcome hmem
        rcases List.mem_append.mp hmem with hold | hnew
        · exact hx call outcome hold
        · obtain ⟨rfl,rfl⟩ := Act.answered.inj (List.mem_singleton.mp hnew)
          exact h.answer call x.1
      remember := by
        intro x hx m call outcome hmem
        exact hx call outcome (by simpa [Collaborators.observed] using hmem)
      reserve := by
        intro x hx m n call outcome hmem
        refine hx call outcome ?_
        simp only [Collaborators.observed] at hmem
        split at hmem
        · exact hmem
        · simpa using hmem
      count := by
        intro x hx n call outcome hmem
        exact hx call outcome (by simpa [Collaborators.observed] using hmem)
      publish := by
        intro x hx e call outcome hmem
        exact hx call outcome (by simpa [Collaborators.observed] using hmem) }
  exact run_preserves hpreserves a input (s := (s, [])) (by simp)

theorem unarmed_vain :
    Vain (c.clock (opened c a s)) input (trace c a input s) (run c a input s).1 := by
  have hanswered := answered_unarmed h a input s
  cases hrun : (run c a input s).1 with
  | error e =>
    have hnothing : trace c a input s = [] := trace_of_error hrun
    rw [hnothing]
    exact ⟨by simp,by simp,by simp⟩
  | ok result =>
    rcases run_course c a input s hrun with ⟨x,s₁,finishedAt,-,rfl,htrace⟩ | ⟨o,s₁,-,rfl,htrace⟩
    · refine ⟨?_,hanswered,?_⟩
      · simp [htrace,opening]
      · rintro _ ⟨⟩
        exact .inl rfl
    · have hgrammar := course_grammatical o htrace
      have hvain : ∀ x ∈ Act.outputs (trace c a input s), x.2 = notFound x.1.name := by
        intro x hx
        obtain ⟨y,hy,hyx⟩ := List.mem_filterMap.mp hx
        obtain rfl := answered_of_output hyx
        exact Except.ok.inj (hanswered x.1 _ hy)
      refine ⟨?_,hanswered,?_⟩
      · intro request hrequest
        rw [htrace,h.schema] at hrequest
        have hmem : request ∈ Act.requests (o.acts a none (heard (c.history (opened c a s))
            (c.clock (opened c a s)) input)) := by simpa [opening] using hrequest
        obtain ⟨_,_,rfl⟩ := (grounded_course a none o.ending _ o.rounds _).of_mem _ _ hmem
        rfl
      · rintro _ ⟨⟩
        have hall {g : Round} (hg : ∀ x ∈ g.answers,
            x ∈ o.rounds.flatMap Round.answers ++ o.ending.tail.answers) :
            g.messages = inVain g.toReply (g.outputs.map Output.toldAt) :=
          messages_vain fun x hx =>
            hvain (x.1, x.2.text) (hgrammar.answers.subset (hg _ (List.mem_map_of_mem hx)))
        refine .inr ⟨o.rounds,o.ending.tail,hgrammar,?_,?_⟩
        · intro g hg
          refine ⟨_,?_,hall fun x hx =>
            List.mem_append_left _ (List.mem_flatMap.mpr ⟨g,hg,hx⟩)⟩
          rw [List.length_map]
          exact (o.complete g hg).all
        · intro g hg
          exact ⟨_,hall fun x hx => List.mem_append_right _ (by rwa [hg])⟩

end Unarmed

end Run
end ReasonAct
