import ReasonAct.Run.Loop
/-!
Runs over related surroundings. Where two surroundings answer alike and stay related at every
exchange, a run ends alike in both. So a run keeps whatever each single exchange keeps.
-/
set_option autoImplicit false

namespace ReasonAct

variable {σ τ : Type}

/-- Two outcomes that a run cannot tell apart, in related states. -/
def Alike {α : Type} (R : σ → τ → Prop) (x : α × σ) (y : α × τ) : Prop := x.1 = y.1 ∧ R x.2 y.2

theorem Alike.split {α : Type} {R : σ → τ → Prop} {x : α × σ} {y : α × τ} (h : Alike R x y) :
    ∃ a s t, x = (a, s) ∧ y = (a, t) ∧ R s t := by
  obtain ⟨a,s⟩ := x
  obtain ⟨b,t⟩ := y
  obtain ⟨rfl,hR⟩ := h
  exact ⟨a,s,t,rfl,rfl,hR⟩

/-- Whatever is asked of related states is answered alike, and the states stay related. -/
structure Collaborators.Agrees (c : Collaborators σ) (d : Collaborators τ) (R : σ → τ → Prop) :
    Prop where
  chat : ∀ {s t}, R s t → ∀ request, Alike R (c.chat request s) (d.chat request t)
  answer : ∀ {s t}, R s t → ∀ call, Alike R (c.answer call s) (d.answer call t)
  remember : ∀ {s t}, R s t → ∀ m, Alike R (c.remember m s) (d.remember m t)
  reserve : ∀ {s t}, R s t → ∀ m n, Alike R (c.reserve m n s) (d.reserve m n t)
  history : ∀ {s t}, R s t → c.history s = d.history t
  schema : ∀ {s t}, R s t → c.schema s = d.schema t
  isShutDown : ∀ {s t}, R s t → c.isShutDown s = d.isShutDown t
  clock : ∀ {s t}, R s t → c.clock s = d.clock t
  count : ∀ {s t}, R s t → ∀ n, R (c.count n s) (d.count n t)
  publish : ∀ {s t}, R s t → ∀ e, R (c.publish e s) (d.publish e t)

structure Collaborators.Preserves (c : Collaborators σ) (P : σ → Prop) : Prop where
  chat : ∀ {s}, P s → ∀ request, P (c.chat request s).2
  answer : ∀ {s}, P s → ∀ call, P (c.answer call s).2
  remember : ∀ {s}, P s → ∀ m, P (c.remember m s).2
  reserve : ∀ {s}, P s → ∀ m n, P (c.reserve m n s).2
  count : ∀ {s}, P s → ∀ n, P (c.count n s)
  publish : ∀ {s}, P s → ∀ e, P (c.publish e s)

theorem Collaborators.Preserves.agrees {c : Collaborators σ} {P : σ → Prop} (h : c.Preserves P) :
    c.Agrees c (fun s t => s = t ∧ P s) where
  chat := by rintro s _ ⟨rfl,hs⟩ request; exact ⟨rfl,rfl,h.chat hs request⟩
  answer := by rintro s _ ⟨rfl,hs⟩ call; exact ⟨rfl,rfl,h.answer hs call⟩
  remember := by rintro s _ ⟨rfl,hs⟩ m; exact ⟨rfl,rfl,h.remember hs m⟩
  reserve := by rintro s _ ⟨rfl,hs⟩ m n; exact ⟨rfl,rfl,h.reserve hs m n⟩
  history := by rintro s _ ⟨rfl,hs⟩; rfl
  schema := by rintro s _ ⟨rfl,hs⟩; rfl
  isShutDown := by rintro s _ ⟨rfl,hs⟩; rfl
  clock := by rintro s _ ⟨rfl,hs⟩; rfl
  count := by rintro s _ ⟨rfl,hs⟩ n; exact ⟨rfl,h.count hs n⟩
  publish := by rintro s _ ⟨rfl,hs⟩ e; exact ⟨rfl,h.publish hs e⟩

namespace Run

variable {c : Collaborators σ} {d : Collaborators τ} {R : σ → τ → Prop}

theorem record_alike (h : c.Agrees d R) {s : σ} {t : τ} (hst : R s t) (m : Message)
    (p : Progress) : Alike R (record c m p s) (record d m p t) := by
  obtain ⟨o,s₁,t₁,hc,hd,hR⟩ := (h.remember hst m).split
  unfold record
  rw [hc,hd]
  cases o with
  | error e => exact ⟨rfl,hR⟩
  | ok u =>
    obtain ⟨room,s₂,t₂,hc,hd,hR⟩ := (h.reserve hR m (p.past.length + p.transcript.length)).split
    dsimp only
    rw [hc,hd]
    cases room <;> exact ⟨rfl,hR⟩

theorem answerAll_alike (h : c.Agrees d R) (calls : List ToolCall) (p : Progress) {s : σ} {t : τ}
    (hst : R s t) :
    ∃ o q s' t', answerAll c calls p s = (o, q, s') ∧ answerAll d calls p t = (o, q, t') ∧
      R s' t' := by
  induction calls generalizing p s t with
  | nil => exact ⟨none,p,s,t,rfl,rfl,hst⟩
  | cons call calls ih =>
    obtain ⟨o,s₁,t₁,hc,hd,hR⟩ := (h.answer hst call).split
    cases o with
    | error e => exact ⟨some e,p,s₁,t₁,by simp [answerAll,hc],by simp [answerAll,hd],hR⟩
    | ok output =>
      have hp := h.publish hR
        (.toolExecuted call.name (ToolResult.ofOutput call.id output).isError 0 (d.clock t₁))
      have hclock := h.clock hR
      obtain ⟨o,s₂,t₂,hc₂,hd₂,hR₂⟩ := (record_alike h hp (.ofResult (.ofOutput call.id output)
        (d.clock (d.publish (.toolExecuted call.name
          (ToolResult.ofOutput call.id output).isError 0 (d.clock t₁)) t₁))) p).split
      have hclock₂ := h.clock hp
      cases o with
      | error e =>
        exact ⟨some e,p,s₂,t₂,by simp [answerAll,hc,hclock,hclock₂,hc₂],
          by simp [answerAll,hd,hd₂],hR₂⟩
      | ok q =>
        obtain ⟨o,r,s₃,t₃,hc₃,hd₃,hR₃⟩ := ih q hR₂
        exact ⟨o,r,s₃,t₃,by simp [answerAll,hc,hclock,hclock₂,hc₂,hc₃],
          by simp [answerAll,hd,hd₂,hd₃],hR₃⟩

theorem finish_alike (h : c.Agrees d R) (a : Profile) (status : RunStatus)
    (response : Option String) (error : Option Error) (p : Progress) {s : σ} {t : τ}
    (hst : R s t) :
    Alike R (finish c a status response error p s) (finish d a status response error p t) := by
  unfold finish
  rw [h.clock hst]
  exact ⟨rfl,h.publish hst _⟩

theorem exhausted_alike (h : c.Agrees d R) (a : Profile) (p : Progress) {s : σ} {t : τ}
    (hst : R s t) : Alike R (exhausted c a p s) (exhausted d a p t) :=
  finish_alike h a _ _ _ _ (h.count hst _)

theorem settle_alike (h : c.Agrees d R) (a : Profile) {next : Progress → σ → RunResult × σ}
    {go : Progress → τ → RunResult × τ} (hn : ∀ p {s t}, R s t → Alike R (next p s) (go p t))
    (r : ChatResponse) (p : Progress) {s : σ} {t : τ} (hst : R s t) :
    Alike R (settle c a next r p s) (settle d a go r p t) := by
  obtain ⟨o,s₁,t₁,hc,hd,hR⟩ := (record_alike h hst (r.message (d.clock t)) p).split
  unfold settle
  rw [h.clock hst]
  dsimp only
  rw [hc,hd]
  split
  · cases o with
    | error e => exact finish_alike h a _ _ _ _ hR
    | ok q => exact finish_alike h a _ _ _ _ hR
  split
  · exact exhausted_alike h a p hst
  cases o with
  | error e => exact finish_alike h a _ _ _ _ hR
  | ok q =>
    dsimp only
    obtain ⟨o,r,s₂,t₂,hc,hd,hR⟩ := answerAll_alike h (r.message (d.clock t)).toolCalls q hR
    rw [hc,hd]
    cases o with
    | some e => exact finish_alike h a _ _ _ _ hR
    | none => exact hn r hR

theorem turns_alike (h : c.Agrees d R) (a : Profile) (tools : Option String) (left : Nat)
    (p : Progress) {s : σ} {t : τ} (hst : R s t) :
    Alike R (turns c a tools left p s) (turns d a tools left p t) := by
  induction left generalizing p s t with
  | zero => exact exhausted_alike h a p hst
  | succ left ih =>
    unfold turns
    rw [h.isShutDown hst]
    split
    · exact finish_alike h a _ _ _ p hst
    dsimp only
    have hcount := h.count hst (p.iterations+1)
    rw [h.clock hcount]
    obtain ⟨o,s₁,t₁,hc,hd,hR⟩ := (h.chat hcount (request a (d.clock (d.count (p.iterations+1) t))
      tools { p with iterations := p.iterations+1 })).split
    rw [hc,hd]
    cases o with
    | error e => exact finish_alike h a _ _ _ _ hR
    | ok r =>
      dsimp only
      rw [h.clock hR]
      exact settle_alike h a ih r _ (h.publish hR _)

theorem opened_alike (h : c.Agrees d R) (a : Profile) {s : σ} {t : τ} (hst : R s t) :
    R (opened c a s) (opened d a t) := by
  have hcount := h.count hst 0
  unfold opened
  dsimp only
  rw [h.clock hcount]
  exact h.publish hcount _

theorem run_alike (h : c.Agrees d R) (a : Profile) (input : String) {s : σ} {t : τ}
    (hst : R s t) : Alike R (run c a input s) (run d a input t) := by
  unfold run
  rw [h.isShutDown hst]
  split
  · exact ⟨rfl,hst⟩
  split
  · exact ⟨rfl,hst⟩
  dsimp only
  have hopen := opened_alike h a hst
  rw [h.history hopen,h.clock hopen]
  obtain ⟨o,s₁,t₁,hc,hd,hR⟩ := (record_alike h hopen (.user input (d.clock (opened d a t)))
    (start (d.history (opened d a t)))).split
  rw [hc,hd]
  cases o with
  | error e =>
    have hf := finish_alike h a .error none (some e) (start (d.history (opened d a t))) hR
    exact ⟨congrArg Except.ok hf.1,hf.2⟩
  | ok p =>
    dsimp only
    rw [h.schema hR]
    have ht := turns_alike h a (d.schema t₁) a.maxIterations.toNat p hR
    exact ⟨congrArg Except.ok ht.1,ht.2⟩

theorem run_preserves {P : σ → Prop} (h : c.Preserves P) (a : Profile) (input : String) {s : σ}
    (hs : P s) : P (run c a input s).2 :=
  (run_alike h.agrees a input ⟨rfl,hs⟩).2.2

end Run
end ReasonAct
