import ReasonAct.Proofs.Run.Simulation
set_option autoImplicit false

namespace ReasonAct

variable {σ : Type}

/-- The same surroundings, which note how they were before and behind every call of the model and of
a tool. -/
def Collaborators.noting (c : Collaborators σ) : Collaborators (σ × List (σ × σ)) where
  chat request s :=
    let (outcome, t) := c.chat request s.1
    (outcome, t, s.2 ++ [(s.1, t)])
  answer call s :=
    let (outcome, t) := c.answer call s.1
    (outcome, t, s.2 ++ [(s.1, t)])
  remember m s :=
    let (outcome, t) := c.remember m s.1
    (outcome, t, s.2)
  reserve m n s :=
    let (room, t) := c.reserve m n s.1
    (room, t, s.2)
  history s := c.history s.1
  schema s := c.schema s.1
  isShutDown s := c.isShutDown s.1
  clock s := c.clock s.1
  count n s := (c.count n s.1, s.2)
  publish e s := (c.publish e s.1, s.2)

theorem Collaborators.noting_agrees (c : Collaborators σ) :
    c.noting.Agrees c (fun x s => x.1 = s) where
  chat := by rintro s _ rfl request; exact ⟨rfl,rfl⟩
  answer := by rintro s _ rfl call; exact ⟨rfl,rfl⟩
  remember := by rintro s _ rfl m; exact ⟨rfl,rfl⟩
  reserve := by rintro s _ rfl m n; exact ⟨rfl,rfl⟩
  history := by rintro s _ rfl; rfl
  schema := by rintro s _ rfl; rfl
  isShutDown := by rintro s _ rfl; rfl
  clock := by rintro s _ rfl; rfl
  count := by rintro s _ rfl n; rfl
  publish := by rintro s _ rfl e; rfl

/-- A relation between the surroundings before and behind whatever a run does by itself. -/
structure Collaborators.Own (c : Collaborators σ) (P : σ → Prop) (R : σ → σ → Prop) : Prop where
  preserves : c.Preserves P
  refl : ∀ s, R s s
  trans : ∀ {s t u}, R s t → R t u → R s u
  remember : ∀ {s}, P s → ∀ m, R s (c.remember m s).2
  reserve : ∀ {s}, P s → ∀ m n, R s (c.reserve m n s).2
  count : ∀ {s}, P s → ∀ n, R s (c.count n s)
  publish : ∀ {s}, P s → ∀ e, R s (c.publish e s)

theorem Collaborators.Own.noting {c : Collaborators σ} {P : σ → Prop} {R : σ → σ → Prop}
    (h : c.Own P R) (s : σ) :
    c.noting.Preserves fun x => P x.1 ∧ ((∀ y ∈ x.2, R y.1 y.2) → R s x.1) where
  chat := by
    intro x hx request
    refine ⟨h.preserves.chat hx.1 request,?_⟩
    intro hall
    have hlast := hall (x.1, (c.chat request x.1).2) (List.mem_append_right _ List.mem_cons_self)
    exact h.trans (hx.2 fun y hy => hall y (List.mem_append_left _ hy)) hlast
  answer := by
    intro x hx call
    refine ⟨h.preserves.answer hx.1 call,?_⟩
    intro hall
    have hlast := hall (x.1, (c.answer call x.1).2) (List.mem_append_right _ List.mem_cons_self)
    exact h.trans (hx.2 fun y hy => hall y (List.mem_append_left _ hy)) hlast
  remember hx m :=
    ⟨h.preserves.remember hx.1 m,fun hall => h.trans (hx.2 hall) (h.remember hx.1 m)⟩
  reserve hx m n :=
    ⟨h.preserves.reserve hx.1 m n,fun hall => h.trans (hx.2 hall) (h.reserve hx.1 m n)⟩
  count hx n := ⟨h.preserves.count hx.1 n,fun hall => h.trans (hx.2 hall) (h.count hx.1 n)⟩
  publish hx e := ⟨h.preserves.publish hx.1 e,fun hall => h.trans (hx.2 hall) (h.publish hx.1 e)⟩

namespace Run

/-- The states before and behind every call of the model and of a tool in a run, in order. -/
def effects (c : Collaborators σ) (a : Profile) (input : String) (s : σ) : List (σ × σ) :=
  (run c.noting a input (s, [])).2.2

/-- What holds for each call of a model or a tool holds for the run, if it holds for what a run does
by itself. -/
theorem run_effects {c : Collaborators σ} {P : σ → Prop} {R : σ → σ → Prop} (h : c.Own P R)
    (a : Profile) (input : String) {s : σ} (hs : P s)
    (heffects : ∀ x ∈ effects c a input s, R x.1 x.2) : R s (run c a input s).2 := by
  have hkept := run_preserves (h.noting s) a input (s := (s, [])) ⟨hs,fun _ => h.refl s⟩
  have hsame : (run c.noting a input (s, [])).2.1 = (run c a input s).2 :=
    (run_alike c.noting_agrees a input (show ((s, []) : σ × List (σ × σ)).1 = s from rfl)).2
  exact hsame ▸ hkept.2 heffects

end Run
end ReasonAct
