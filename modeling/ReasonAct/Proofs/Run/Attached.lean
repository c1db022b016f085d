import ReasonAct.Proofs.Memory.Append
import ReasonAct.Proofs.Run.Course
set_option autoImplicit false

namespace ReasonAct

variable {σ : Type}

/-- The collaborators remember by way of `memory`, and do nothing else to it. They behave so as
long as the state is `Quiet`, and it stays so. -/
structure Collaborators.Attached (c : Collaborators σ) (memory : σ → Memory) (Quiet : σ → Prop) :
    Prop where
  history : ∀ {s}, Quiet s → c.history s = (memory s).messages
  remember : ∀ {s}, Quiet s → ∀ m, Quiet (c.remember m s).2 ∧
    c.schema (c.remember m s).2 = c.schema s ∧
    match (c.remember m s).1 with
    | .ok _ => (memory s).append m = .ok (memory (c.remember m s).2)
    | .error _ => memory (c.remember m s).2 = memory s
  reserve : ∀ {s}, Quiet s → ∀ m n, Quiet (c.reserve m n s).2 ∧
    c.schema (c.reserve m n s).2 = c.schema s ∧ memory (c.reserve m n s).2 = memory s
  chat : ∀ {s}, Quiet s → ∀ request,
    Quiet (c.chat request s).2 ∧ memory (c.chat request s).2 = memory s
  answer : ∀ {s}, Quiet s → ∀ call, Quiet (c.answer call s).2 ∧ memory (c.answer call s).2 = memory s
  count : ∀ {s}, Quiet s → ∀ n, Quiet (c.count n s) ∧ c.schema (c.count n s) = c.schema s ∧
    memory (c.count n s) = memory s
  publish : ∀ {s}, Quiet s → ∀ e, Quiet (c.publish e s) ∧ c.schema (c.publish e s) = c.schema s ∧
    memory (c.publish e s) = memory s

namespace Collaborators.Attached

variable {c : Collaborators σ} {memory : σ → Memory} {Quiet : σ → Prop}

theorem remember_ok (h : c.Attached memory Quiet) {s s' : σ} (hs : Quiet s) {m : Message}
    (hr : c.remember m s = (.ok (), s')) :
    Quiet s' ∧ c.schema s' = c.schema s ∧ (memory s).append m = .ok (memory s') := by
  have hm := h.remember hs m
  rwa [hr] at hm

theorem remember_error (h : c.Attached memory Quiet) {s s' : σ} (hs : Quiet s) {m : Message}
    {e : Error} (hr : c.remember m s = (.error e, s')) : Quiet s' ∧ memory s' = memory s := by
  have hm := h.remember hs m
  rw [hr] at hm
  exact ⟨hm.1,hm.2.2⟩

theorem preserves (h : c.Attached memory Quiet) (start : Memory) :
    c.observed.Preserves fun x => Quiet x.1 ∧ start.appendAll (Act.taken x.2) = .ok (memory x.1) where
  chat := by
    rintro ⟨s,acts⟩ ⟨hs,hm⟩ request
    obtain ⟨hq,hmem⟩ := h.chat hs request
    exact ⟨hq,by simpa [Collaborators.observed,hmem] using hm⟩
  answer := by
    rintro ⟨s,acts⟩ ⟨hs,hm⟩ call
    obtain ⟨hq,hmem⟩ := h.answer hs call
    exact ⟨hq,by simpa [Collaborators.observed,hmem] using hm⟩
  remember := by
    rintro ⟨s,acts⟩ ⟨hs,hm⟩ m
    cases hr : c.remember m s with
    | mk o s' =>
      cases o with
      | ok u =>
        obtain ⟨hq,-,hmem⟩ := h.remember_ok hs hr
        refine ⟨by simpa [Collaborators.observed,hr] using hq,?_⟩
        simp only [Collaborators.observed,hr,Act.view_append,Memory.appendAll_append]
        rw [hm]
        simp [bind,Except.bind,hmem]
      | error e =>
        obtain ⟨hq,hmem⟩ := h.remember_error hs hr
        exact ⟨by simpa [Collaborators.observed,hr] using hq,
          by simpa [Collaborators.observed,hr,hmem] using hm⟩
  reserve := by
    rintro ⟨s,acts⟩ ⟨hs,hm⟩ m n
    obtain ⟨hq,-,hmem⟩ := h.reserve hs m n
    refine ⟨hq,?_⟩
    cases hroom : (c.reserve m n s).1 <;> simpa [Collaborators.observed,hmem,hroom] using hm
  count := by
    rintro ⟨s,acts⟩ ⟨hs,hm⟩ n
    obtain ⟨hq,-,hmem⟩ := h.count hs n
    exact ⟨hq,by simpa [Collaborators.observed,hmem] using hm⟩
  publish := by
    rintro ⟨s,acts⟩ ⟨hs,hm⟩ e
    obtain ⟨hq,-,hmem⟩ := h.publish hs e
    exact ⟨hq,by simpa [Collaborators.observed,hmem] using hm⟩

end Collaborators.Attached

namespace Run

section Attached

variable {c : Collaborators σ} {memory : σ → Memory} {Quiet : σ → Prop}
  (h : c.Attached memory Quiet)

include h

theorem record_attached {m : Message} {p q : Progress} {s s' : σ} (hs : Quiet s)
    (hr : record c m p s = (.ok q, s')) : c.schema s' = c.schema s := by
  unfold record at hr
  cases hm : c.remember m s with
  | mk o t =>
    cases o with
    | error e => simp [hm] at hr
    | ok u =>
      obtain ⟨ht,hschema,-⟩ := h.remember_ok hs hm
      have hreserve := (h.reserve ht m (p.past.length + p.transcript.length)).2.1
      cases hroom : c.reserve m (p.past.length + p.transcript.length) t with
      | mk room t' =>
        rw [hroom] at hreserve
        cases room with
        | false => simp [hm,hroom] at hr
        | true =>
          simp only [hm,hroom,Prod.mk.injEq] at hr
          rw [← hr.2]
          exact hreserve.trans hschema

theorem taken_replays (a : Profile) (input : String) {s : σ} (hs : Quiet s) :
    Quiet (run c a input s).2 ∧
      (memory s).appendAll (Act.taken (trace c a input s)) =
        .ok (memory (run c a input s).2) := by
  have hp := run_preserves (h.preserves (memory s)) a input (s := (s, [])) ⟨hs,rfl⟩
  rwa [run_observed] at hp

/-- The past of an attached run is what its memory held, and the tools are those of the start. -/
theorem attached_course {a : Profile} {input : String} {s : σ} (hs : Quiet s) {result : RunResult}
    (hr : (run c a input s).1 = .ok result) :
    ∃ startedAt now finishedAt, (∃ x : Refusal, result = unheard x.error ∧
      trace c a input s = opening a startedAt ++
        (x.acts (.user input now) ++ [.published (finished a finishedAt result)])) ∨
    ∃ o : Course, result = o.result a (heard (memory s).messages now input) ∧
      trace c a input s = opening a startedAt ++ .remembered (.user input now) (.ok ()) ::
        o.acts a (c.schema s) (heard (memory s).messages now input) := by
  obtain ⟨hcount,hcschema,hcmem⟩ := h.count hs 0
  obtain ⟨hopen,hschema,hmem⟩ := h.publish hcount
    (.runStarted a.name a.sessionId (c.clock (c.count 0 s)))
  have hpast : c.history (opened c a s) = (memory s).messages :=
    (h.history hopen).trans (congrArg Memory.messages (hmem.trans hcmem))
  rcases run_course c a input s hr with ⟨x,s₁,finishedAt,-,hres,htrace⟩ | ⟨o,s₁,hm,hres,htrace⟩
  · exact ⟨_,_,finishedAt,.inl ⟨x,hres,htrace⟩⟩
  · have htools : c.schema s₁ = c.schema s :=
      (record_attached h hopen hm).trans (hschema.trans hcschema)
    rw [hpast] at hres htrace
    rw [htools] at htrace
    exact ⟨_,_,o.finishedAt,.inr ⟨o,hres,htrace⟩⟩

end Attached

end Run
end ReasonAct
