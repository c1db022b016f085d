import ReasonAct.Proofs.Run.Course
/-!
Runs that go along with each other as long as all is well. Where two surroundings can be told apart
only once something has gone wrong in the first, and it never comes right again, a run in which all
is well at the end has gone alike in both.
-/
set_option autoImplicit false

namespace ReasonAct

variable {σ τ : Type} {Good : σ → Prop} {R : σ → τ → Prop}

/-- What is done on the left goes along with what is done on the right: if all is well behind it,
then all was well before, and both come out alike. -/
def Along (Good : σ → Prop) (R : σ → τ → Prop) {α : Type} (f : σ → α × σ) (g : τ → α × τ) : Prop :=
  ∀ s t, (Good s → R s t) → Good (f s).2 → Good s ∧ Alike R (f s) (g t)

def inEither {ε α β : Type} (k : ε → σ → β) (l : α → σ → β) : Except ε α × σ → β
  | (.error e, s) => k e s
  | (.ok x, s) => l x s

namespace Along

variable {α β : Type} {f : σ → α × σ} {g : τ → α × τ}

theorem pure (a : α) : Along Good R (fun s => (a, s)) (fun t => (a, t)) :=
  fun _ _ hst hs => ⟨hs,rfl,hst hs⟩

theorem bind (h : Along Good R f g) {k : α → σ → β × σ} {l : α → τ → β × τ}
    (hk : ∀ a, Along Good R (k a) (l a)) :
    Along Good R (fun s => k (f s).1 (f s).2) (fun t => l (g t).1 (g t).2) := by
  intro s t hst hgood
  obtain ⟨hmid,hrest⟩ := hk (f s).1 _ (g t).2 (fun hmid => (h s t hst hmid).2.2) hgood
  obtain ⟨hs,hsame,-⟩ := h s t hst hmid
  refine ⟨hs,?_⟩
  dsimp only
  rwa [← hsame]

theorem either {ε : Type} {f : σ → Except ε α × σ} {g : τ → Except ε α × τ}
    (h : Along Good R f g) {k : ε → σ → β × σ} {k' : ε → τ → β × τ}
    (hk : ∀ e, Along Good R (k e) (k' e)) {l : α → σ → β × σ} {l' : α → τ → β × τ}
    (hl : ∀ x, Along Good R (l x) (l' x)) :
    Along Good R (fun s => inEither k l (f s)) (fun t => inEither k' l' (g t)) := by
  refine h.bind (k := fun o s => inEither k l (o, s)) (l := fun o t => inEither k' l' (o, t)) ?_
  rintro (e | x)
  · exact hk e
  · exact hl x

section Read

variable {q : σ → β} {q' : τ → β} (hq : ∀ s t, Good s → R s t → q s = q' t)

include hq

theorem read {k : β → σ → α × σ} {l : β → τ → α × τ} (hk : ∀ b, Along Good R (k b) (l b)) :
    Along Good R (fun s => k (q s) s) (fun t => l (q' t) t) := by
  intro s t hst hgood
  obtain ⟨hs,hsame⟩ := hk (q s) s t hst hgood
  refine ⟨hs,?_⟩
  dsimp only
  rwa [← hq s t hs (hst hs)]

end Read

theorem choose {b : σ → Bool} {b' : τ → Bool} (hb : ∀ s t, Good s → R s t → b s = b' t)
    {f' : σ → α × σ} {g' : τ → α × τ} (h : Along Good R f g) (h' : Along Good R f' g') :
    Along Good R (fun s => if b s then f s else f' s) (fun t => if b' t then g t else g' t) := by
  refine read hb (k := fun b s => if b then f s else f' s)
    (l := fun b t => if b then g t else g' t) ?_
  rintro (_ | _)
  · exact h'
  · exact h

end Along

/-- As long as all is well, related states are asked and answered alike and stay related. -/
structure Collaborators.GoesAlong (c : Collaborators σ) (d : Collaborators τ) (Good : σ → Prop)
    (R : σ → τ → Prop) : Prop where
  chat : ∀ request, Along Good R (c.chat request) (d.chat request)
  answer : ∀ call, Along Good R (c.answer call) (d.answer call)
  remember : ∀ m, Along Good R (c.remember m) (d.remember m)
  reserve : ∀ m n, Along Good R (c.reserve m n) (d.reserve m n)
  history : ∀ s t, Good s → R s t → c.history s = d.history t
  schema : ∀ s t, Good s → R s t → c.schema s = d.schema t
  isShutDown : ∀ s t, Good s → R s t → c.isShutDown s = d.isShutDown t
  clock : ∀ s t, Good s → R s t → c.clock s = d.clock t
  count : ∀ n, Along Good R (fun s => ((), c.count n s)) (fun t => ((), d.count n t))
  publish : ∀ e, Along Good R (fun s => ((), c.publish e s)) (fun t => ((), d.publish e t))

theorem Collaborators.GoesAlong.observed {c : Collaborators σ} {d : Collaborators τ}
    (h : c.GoesAlong d Good R) :
    c.observed.GoesAlong d.observed (fun x => Good x.1) (fun x y => R x.1 y.1 ∧ x.2 = y.2) where
  chat := by
    intro request s t hst hgood
    obtain ⟨hs,hsame,hR⟩ := h.chat request s.1 t.1 (fun hs => (hst hs).1) hgood
    exact ⟨hs,hsame,hR,by simp [Collaborators.observed,(hst hs).2,hsame]⟩
  answer := by
    intro call s t hst hgood
    obtain ⟨hs,hsame,hR⟩ := h.answer call s.1 t.1 (fun hs => (hst hs).1) hgood
    exact ⟨hs,hsame,hR,by simp [Collaborators.observed,(hst hs).2,hsame]⟩
  remember := by
    intro m s t hst hgood
    obtain ⟨hs,hsame,hR⟩ := h.remember m s.1 t.1 (fun hs => (hst hs).1) hgood
    exact ⟨hs,hsame,hR,by simp [Collaborators.observed,(hst hs).2,hsame]⟩
  reserve := by
    intro m n s t hst hgood
    obtain ⟨hs,hsame,hR⟩ := h.reserve m n s.1 t.1 (fun hs => (hst hs).1) hgood
    refine ⟨hs,hsame,hR,?_⟩
    simp [Collaborators.observed,(hst hs).2,hsame]
  history s t hs hst := h.history s.1 t.1 hs hst.1
  schema s t hs hst := h.schema s.1 t.1 hs hst.1
  isShutDown s t hs hst := h.isShutDown s.1 t.1 hs hst.1
  clock s t hs hst := h.clock s.1 t.1 hs hst.1
  count := by
    intro n s t hst hgood
    obtain ⟨hs,-,hR⟩ := h.count n s.1 t.1 (fun hs => (hst hs).1) hgood
    exact ⟨hs,rfl,hR,by simp [Collaborators.observed,(hst hs).2]⟩
  publish := by
    intro e s t hst hgood
    obtain ⟨hs,-,hR⟩ := h.publish e s.1 t.1 (fun hs => (hst hs).1) hgood
    exact ⟨hs,rfl,hR,by simp [Collaborators.observed,(hst hs).2]⟩

namespace Run

section Steps

variable (c : Collaborators σ) (a : Profile) (p : Progress)

def grown (m : Message) : Bool × σ → Except Error Progress × σ
  | (false, s) => (.error historyFull, s)
  | (true, s) => (.ok { p with transcript := p.transcript ++ [m] }, s)

theorem record_eq (m : Message) : record c m p = fun s => inEither (fun e s => (.error e, s))
    (fun _ s => grown p m (c.reserve m (p.past.length + p.transcript.length) s))
    (c.remember m s) := by
  funext s
  unfold record
  rcases c.remember m s with ⟨_ | _, s₁⟩
  · rfl
  dsimp only [inEither]
  rcases c.reserve m (p.past.length + p.transcript.length) s₁ with ⟨_ | _, _⟩ <;> rfl

def answers (calls : List ToolCall) (s : σ) : Except (Error × Progress) Progress × σ :=
  match answerAll c calls p s with
  | (some e, p, s) => (.error (e, p), s)
  | (none, p, s) => (.ok p, s)

theorem answers_cons (call : ToolCall) (calls : List ToolCall) :
    answers c p (call :: calls) = fun s => inEither (fun e s => (.error (e, p), s))
      (fun text s => inEither (fun e s => (.error (e, p), s)) (fun q s => answers c q calls s)
        (record c (told (call, (tell c call text s).1)) p (tell c call text s).2))
      (c.answer call s) := by
  funext s
  unfold answers
  rw [answerAll_cons]
  rcases c.answer call s with ⟨e | text, s₁⟩
  · rfl
  · simp only [inEither]
    rcases record c (told (call, (tell c call text s₁).1)) p (tell c call text s₁).2 with
      ⟨_ | _, _⟩ <;> rfl

def settled (next : Progress → σ → RunResult × σ) (r : ChatResponse) (m : Message) :
    σ → RunResult × σ :=
  if isFinal r then fun s => inEither (fun e s => fail c a e p s)
    (fun q s => finish c a .success m.text none q s) (record c m p s)
  else if !r.hasToolCalls then exhausted c a p
  else fun s => inEither (fun e s => fail c a e p s)
    (fun q s => inEither (fun x s => fail c a x.1 x.2 s) next (answers c q m.toolCalls s))
    (record c m p s)

theorem settle_eq (next : Progress → σ → RunResult × σ) (r : ChatResponse) :
    settle c a next r p = fun s => settled c a p next r (r.message (c.clock s)) s := by
  funext s
  unfold settle settled
  dsimp only
  split
  · dsimp only
    rcases record c (r.message (c.clock s)) p s with ⟨_ | _, _⟩ <;> rfl
  split
  · rfl
  dsimp only
  rcases record c (r.message (c.clock s)) p s with ⟨_ | q, s₁⟩
  · rfl
  dsimp only [inEither,answers]
  rcases answerAll c (r.message (c.clock s)).toolCalls q s₁ with ⟨_ | _, _, _⟩ <;> rfl

theorem turns_succ (tools : Option String) (left : Nat) :
    turns c a tools (left + 1) p = fun s =>
      if c.isShutDown s then finish c a .aborted none none p s
      else inEither (fun e s => fail c a (.provider e) { p with iterations := p.iterations + 1 } s)
        (fun r s => settle c a (turns c a tools left) r
          { p with iterations := p.iterations + 1, usage := p.usage.accumulate r.usage }
          (c.publish (.llmResponded a.name (p.iterations + 1) r.finishReason r.usage.total
            (c.clock s)) s))
        (c.chat (request a (c.clock (c.count (p.iterations + 1) s)) tools
          { p with iterations := p.iterations + 1 }) (c.count (p.iterations + 1) s)) := by
  funext s
  rw [turns]
  split
  · rfl
  dsimp only
  rcases c.chat (request a (c.clock (c.count (p.iterations + 1) s)) tools
    { p with iterations := p.iterations + 1 }) (c.count (p.iterations + 1) s) with
    ⟨_ | _, _⟩ <;> rfl

def begun (input : String) (past : List Message) (now : Instant) (s : σ) : RunResult × σ :=
  inEither (fun e s => fail c a e (start past) s)
    (fun p s => turns c a (c.schema s) a.maxIterations.toNat p s)
    (record c (.user input now) (start past) s)

theorem run_eq (input : String) : run c a input =
    if Text.blank input then fun s => (.error (.invalidArgument "input must not be empty"), s)
    else fun s =>
      if c.isShutDown s then (.error (sessionClosed a.sessionId), s)
      else
        let s := opened c a s
        (.ok (begun c a input (c.history s) (c.clock s) s).1,
          (begun c a input (c.history s) (c.clock s) s).2) := by
  funext s
  unfold run
  split
  · rfl
  cases hshut : c.isShutDown s with
  | true => simp [hshut]
  | false =>
    simp only [hshut,Bool.false_eq_true,if_false,begun]
    rcases record c (.user input (c.clock (opened c a s))) (start (c.history (opened c a s)))
      (opened c a s) with ⟨_ | _, _⟩ <;> rfl

end Steps

section Along

variable {c : Collaborators σ} {d : Collaborators τ} (h : c.GoesAlong d Good R) (a : Profile)

include h

theorem record_along (m : Message) (p : Progress) :
    Along Good R (record c m p) (record d m p) := by
  rw [record_eq,record_eq]
  refine (h.remember m).either (fun _ => .pure _) fun _ => ?_
  refine (h.reserve m _).bind (k := fun room s => grown p m (room, s))
    (l := fun room t => grown p m (room, t)) ?_
  rintro (_ | _)
  · exact .pure _
  · exact .pure _

theorem publish_along (e : Instant → Event) : Along Good R
    (fun s => ((), c.publish (e (c.clock s)) s)) (fun t => ((), d.publish (e (d.clock t)) t)) :=
  Along.read h.clock fun now => h.publish (e now)

theorem finish_along (status : RunStatus) (response : Option String) (error : Option Error)
    (p : Progress) :
    Along Good R (finish c a status response error p) (finish d a status response error p) :=
  (publish_along h (.runFinished a.name status p.iterations p.usage.total)).bind fun _ => .pure _

theorem exhausted_along (p : Progress) : Along Good R (exhausted c a p) (exhausted d a p) :=
  (h.count _).bind fun _ => finish_along h a _ _ _ _

theorem tell_along (call : ToolCall) (text : String) :
    Along Good R (tell c call text) (tell d call text) := by
  have htold (executedAt : Instant) :=
    (h.publish (.toolExecuted call.name (isErrorPayload text) 0 executedAt)).bind fun _ =>
      Along.read h.clock fun toldAt => Along.pure (Output.mk text executedAt toldAt)
  exact Along.read h.clock htold

theorem answers_along (calls : List ToolCall) (p : Progress) :
    Along Good R (answers c p calls) (answers d p calls) := by
  induction calls generalizing p with
  | nil => exact .pure _
  | cons call calls ih =>
    rw [answers_cons,answers_cons]
    refine (h.answer call).either (fun _ => .pure _) fun text => ?_
    refine Along.either ?_ (fun _ => .pure _) fun q => ih q
    exact (tell_along h call text).bind fun output => record_along h (told (call, output)) p

theorem settle_along {next : Progress → σ → RunResult × σ} {go : Progress → τ → RunResult × τ}
    (hn : ∀ p, Along Good R (next p) (go p)) (r : ChatResponse) (p : Progress) :
    Along Good R (settle c a next r p) (settle d a go r p) := by
  rw [settle_eq,settle_eq]
  refine Along.read h.clock (k := fun now => settled c a p next r (r.message now))
    (l := fun now => settled d a p go r (r.message now)) fun now => ?_
  have hrecord := record_along h (r.message now) p
  have hfail (e : Error) (p : Progress) : Along Good R (fail c a e p) (fail d a e p) :=
    finish_along h a _ _ _ p
  unfold settled
  split
  · exact hrecord.either (fun e => hfail e p) fun q => finish_along h a _ _ _ q
  split
  · exact exhausted_along h a p
  · exact hrecord.either (fun e => hfail e p) fun q =>
      (answers_along h _ q).either (fun x => hfail x.1 x.2) hn

theorem turns_along (tools : Option String) (left : Nat) (p : Progress) :
    Along Good R (turns c a tools left p) (turns d a tools left p) := by
  induction left generalizing p with
  | zero => exact exhausted_along h a p
  | succ left ih =>
    rw [turns_succ,turns_succ]
    refine Along.choose h.isShutDown (finish_along h a _ _ _ p) ?_
    refine Along.either ?_ (fun e => finish_along h a _ _ _ _) fun r => ?_
    · exact (h.count _).bind fun _ => Along.read h.clock fun now => h.chat (request a now tools _)
    · exact (publish_along h (.llmResponded a.name _ r.finishReason r.usage.total)).bind
        fun _ => settle_along h a ih r _

theorem begun_along (input : String) (past : List Message) (now : Instant) :
    Along Good R (begun c a input past now) (begun d a input past now) := by
  refine (record_along h _ _).either (fun e => finish_along h a _ _ _ _) fun p => ?_
  have hturns := Along.read h.schema fun tools =>
    turns_along h a tools a.maxIterations.toNat p
  exact hturns

theorem run_along (input : String) : Along Good R (run c a input) (run d a input) := by
  rw [run_eq,run_eq]
  split
  · exact .pure _
  refine Along.choose h.isShutDown (.pure _) ?_
  have hopened : Along Good R (fun s => ((), opened c a s)) (fun t => ((), opened d a t)) :=
    (h.count 0).bind fun _ => publish_along h (.runStarted a.name a.sessionId)
  have hbegun := Along.read h.history fun past =>
    Along.read h.clock fun now => begun_along h a input past now
  exact (hopened.bind fun _ => hbegun).bind fun result => .pure (Except.ok result)

/-- A run at the end of which all is well comes out alike on both sides, and so does its record. -/
theorem trace_along (input : String) {s : σ} {t : τ} (hst : R s t)
    (hgood : Good (run c a input s).2) :
    Alike R (run c a input s) (run d a input t) ∧ trace c a input s = trace d a input t := by
  have hrun := run_along h.observed a input (s, []) (t, []) (fun _ => ⟨hst,rfl⟩)
  rw [run_observed,run_observed] at hrun
  obtain ⟨-,hsame,hR,htrace⟩ := hrun hgood
  exact ⟨⟨hsame,hR⟩,htrace⟩

end Along
end Run
end ReasonAct
