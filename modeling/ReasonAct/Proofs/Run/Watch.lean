import ReasonAct.Proofs.Run.Course
set_option autoImplicit false

namespace ReasonAct

/-- What passed while something was open, in what it was closed, and what has passed since. -/
inductive Watch where
  | waiting (acts : List Act)
  | closed (before : List Act) (x : Act) (after : List Act)

namespace Act

def CanClose (hasTools : Bool) : Act → Prop
  | .asked _ _ => True
  | .answered _ (.ok _) => hasTools = true
  | _ => False

def Served : Act → Prop
  | .answered _ (.error _) => False
  | _ => True

/-- Neither a call of the model nor of a tool. A call without a registry finds no tool. -/
def Quiet (hasTools : Bool) (released : Error) : Act → Prop
  | .asked _ _ => False
  | .answered call outcome =>
    outcome = if hasTools then .error released else .ok (Run.notFound call.name)
  | _ => True

end Act

namespace Watch

def acts : Watch → List Act
  | waiting acts => acts
  | closed before x after => before ++ x :: after

def isClosed : Watch → Bool
  | waiting _ => false
  | closed _ _ _ => true

/-- One more act; `now` tells whether the thing is closed behind it. -/
def see (x : Act) (now : Bool) : Watch → Watch
  | waiting acts => if now then closed acts x [] else waiting (acts ++ [x])
  | closed before y after => closed before y (after ++ [x])

@[simp] theorem acts_see (x : Act) (now : Bool) (w : Watch) :
    (w.see x now).acts = w.acts ++ [x] := by
  cases w with
  | waiting acts => cases now <;> rfl
  | closed before y after => simp [see,acts]

/-- As long as it is open every call is served, and nothing is called once it is closed. -/
def Lawful (hasTools : Bool) (released : Error) : Watch → Prop
  | waiting acts => ∀ y ∈ acts, y.Served
  | closed before x after =>
    (∀ y ∈ before, y.Served) ∧ x.CanClose hasTools ∧ ∀ y ∈ after, y.Quiet hasTools released

section See

variable {hasTools : Bool} {released : Error} {w : Watch} {x : Act}

theorem see_open (h : w.Lawful hasTools released) (hw : w.isClosed = false) {now : Bool}
    (hx : x.Served) (hnow : now = true → x.CanClose hasTools) :
    (w.see x now).Lawful hasTools released ∧ (w.see x now).isClosed = now := by
  cases w with
  | closed before y after => contradiction
  | waiting acts =>
    cases now with
    | true => exact ⟨⟨h,hnow rfl,by simp⟩,rfl⟩
    | false =>
      refine ⟨?_,rfl⟩
      intro y hy
      rcases List.mem_append.mp hy with hy | hy
      · exact h y hy
      · exact List.mem_singleton.mp hy ▸ hx

theorem see_closed (h : w.Lawful hasTools released) (hw : w.isClosed = true) {now : Bool}
    (hx : x.Quiet hasTools released) :
    (w.see x now).Lawful hasTools released ∧ (w.see x now).isClosed = true := by
  cases w with
  | waiting acts => contradiction
  | closed before y after =>
    refine ⟨⟨h.1,h.2.1,?_⟩,rfl⟩
    intro z hz
    rcases List.mem_append.mp hz with hz | hz
    · exact h.2.2 z hz
    · exact List.mem_singleton.mp hz ▸ hx

theorem see_plain (h : w.Lawful hasTools released) (hs : x.Served)
    (hq : x.Quiet hasTools released) :
    (w.see x w.isClosed).Lawful hasTools released ∧ (w.see x w.isClosed).isClosed = w.isClosed := by
  cases hw : w.isClosed with
  | true => exact see_closed h hw hq
  | false => exact see_open h hw hs (by simp)

end See
end Watch

variable {σ : Type}

/-- The same surroundings, which watch when something is closed. -/
def Collaborators.watched (closed : σ → Bool) (c : Collaborators σ) :
    Collaborators (σ × Watch) where
  chat request s :=
    let (outcome, t) := c.chat request s.1
    (outcome, t, s.2.see (.asked request outcome) (closed t))
  answer call s :=
    let (outcome, t) := c.answer call s.1
    (outcome, t, s.2.see (.answered call outcome) (closed t))
  remember m s :=
    let (outcome, t) := c.remember m s.1
    (outcome, t, s.2.see (.remembered m outcome) (closed t))
  reserve m n s :=
    let (room, t) := c.reserve m n s.1
    (room, t, if room then s.2 else s.2.see (.overflowed m) (closed t))
  history s := c.history s.1
  schema s := c.schema s.1
  isShutDown s := c.isShutDown s.1
  clock s := c.clock s.1
  count n s := (c.count n s.1, s.2.see (.counted n) (closed (c.count n s.1)))
  publish e s := (c.publish e s.1, s.2.see (.published e) (closed (c.publish e s.1)))

theorem Collaborators.watched_agrees (closed : σ → Bool) (c : Collaborators σ) :
    (c.watched closed).Agrees c.observed (fun s t => s.1 = t.1 ∧ s.2.acts = t.2) where
  chat := by
    rintro ⟨s,w⟩ ⟨_,_⟩ ⟨rfl,rfl⟩ request
    exact ⟨rfl,rfl,Watch.acts_see _ _ w⟩
  answer := by
    rintro ⟨s,w⟩ ⟨_,_⟩ ⟨rfl,rfl⟩ call
    exact ⟨rfl,rfl,Watch.acts_see _ _ w⟩
  remember := by
    rintro ⟨s,w⟩ ⟨_,_⟩ ⟨rfl,rfl⟩ m
    exact ⟨rfl,rfl,Watch.acts_see _ _ w⟩
  reserve := by
    rintro ⟨s,w⟩ ⟨_,_⟩ ⟨rfl,rfl⟩ m n
    refine ⟨rfl,rfl,?_⟩
    cases hroom : (c.reserve m n s).1 <;> simp [Collaborators.watched,Collaborators.observed,hroom]
  history := by rintro ⟨s,w⟩ ⟨_,_⟩ ⟨rfl,-⟩; rfl
  schema := by rintro ⟨s,w⟩ ⟨_,_⟩ ⟨rfl,-⟩; rfl
  isShutDown := by rintro ⟨s,w⟩ ⟨_,_⟩ ⟨rfl,-⟩; rfl
  clock := by rintro ⟨s,w⟩ ⟨_,_⟩ ⟨rfl,-⟩; rfl
  count := by
    rintro ⟨s,w⟩ ⟨_,_⟩ ⟨rfl,rfl⟩ n
    exact ⟨rfl,Watch.acts_see _ _ w⟩
  publish := by
    rintro ⟨s,w⟩ ⟨_,_⟩ ⟨rfl,rfl⟩ e
    exact ⟨rfl,Watch.acts_see _ _ w⟩

def Collaborators.guarded (c : Collaborators σ) : Collaborators σ :=
  { c with chat := fun request s =>
      if c.isShutDown s then (.error (.backend "shut down"), s) else c.chat request s }

/-- How surroundings deal with something that is closed. Its closing is seen by the agent, and
calls are answered as long as it is open. -/
structure Collaborators.Closes (c : Collaborators σ) (Good : σ → Prop) (closed : σ → Bool)
    (hasTools : Bool) (released : Error) : Prop where
  shut : ∀ {s}, Good s → c.isShutDown s = closed s
  counting : ∀ n s, c.isShutDown (c.count n s) = c.isShutDown s
  chat : ∀ {s}, Good s → ∀ request, Good (c.chat request s).2
  served : ∀ {s}, Good s → closed s = false → ∀ call, Good (c.answer call s).2 ∧
    (∃ output, (c.answer call s).1 = .ok output) ∧
    (closed (c.answer call s).2 = true → hasTools = true)
  refused : ∀ {s}, Good s → closed s = true → ∀ call, c.answer call s =
    (if hasTools then .error released else .ok (Run.notFound call.name), s)
  remember : ∀ {s}, Good s → ∀ m,
    Good (c.remember m s).2 ∧ closed (c.remember m s).2 = closed s
  reserve : ∀ {s}, Good s → ∀ m n,
    Good (c.reserve m n s).2 ∧ closed (c.reserve m n s).2 = closed s
  count : ∀ {s}, Good s → ∀ n, Good (c.count n s) ∧ closed (c.count n s) = closed s
  publish : ∀ {s}, Good s → ∀ e, Good (c.publish e s) ∧ closed (c.publish e s) = closed s

namespace Run

section Guarded

variable {c : Collaborators σ}

theorem answerAll_guarded (calls : List ToolCall) (p : Progress) (s : σ) :
    answerAll c.guarded calls p s = answerAll c calls p s := by
  induction calls generalizing p s with
  | nil => rfl
  | cons call calls ih =>
    rw [answerAll_cons,answerAll_cons]
    simp only [ih]
    rfl

theorem settle_guarded (a : Profile) (next : Progress → σ → RunResult × σ)
    (r : ChatResponse) (p : Progress) (s : σ) :
    settle c.guarded a next r p s = settle c a next r p s := by
  simp only [settle,answerAll_guarded]
  rfl

theorem turns_guarded (hc : ∀ n s, c.isShutDown (c.count n s) = c.isShutDown s) (a : Profile)
    (tools : Option String) (left : Nat) (p : Progress) (s : σ) :
    turns c.guarded a tools left p s = turns c a tools left p s := by
  induction left generalizing p s with
  | zero => rfl
  | succ left ih =>
    have hnext : turns c.guarded a tools left = turns c a tools left := by
      funext p s
      exact ih p s
    simp only [turns,hnext,settle_guarded]
    cases hs : c.isShutDown s with
    | true => simp [Collaborators.guarded,hs,finish]
    | false => simp [Collaborators.guarded,hs,hc,fail,finish]

/-- A run asks the model only while it is not shut down, so the guard changes nothing. -/
theorem run_guarded (hc : ∀ n s, c.isShutDown (c.count n s) = c.isShutDown s) (a : Profile)
    (input : String) (s : σ) : run c.guarded a input s = run c a input s := by
  simp only [run,turns_guarded hc]
  rfl

end Guarded

section Watched

variable {c : Collaborators σ} {Good : σ → Prop} {closed : σ → Bool} {hasTools : Bool}
  {released : Error}

def watch (c : Collaborators σ) (closed : σ → Bool) (a : Profile) (input : String) (s : σ) :
    Watch := (run (c.watched closed) a input (s, .waiting [])).2.2

theorem run_watched (c : Collaborators σ) (closed : σ → Bool) (a : Profile) (input : String)
    (s : σ) :
    (run (c.watched closed) a input (s, .waiting [])).2.1 = (run c a input s).2 ∧
      (watch c closed a input s).acts = trace c a input s := by
  have h := run_alike (c.watched_agrees closed) a input
    (show ((s, Watch.waiting []) : σ × Watch).1 = ((s, []) : σ × List Act).1 ∧
      Watch.acts (.waiting []) = [] from ⟨rfl,rfl⟩)
  rw [run_observed] at h
  exact h.2

theorem watched_preserves (h : c.Closes Good closed hasTools released) :
    (c.watched closed).guarded.Preserves fun x =>
      Good x.1 ∧ x.2.Lawful hasTools released ∧ x.2.isClosed = closed x.1 where
  chat := by
    rintro ⟨s,w⟩ ⟨hs,hw,hc⟩ request
    have hshut : c.isShutDown s = w.isClosed := (h.shut hs).trans hc.symm
    cases hopen : w.isClosed with
    | true =>
      have hguard : (c.watched closed).guarded.chat request (s, w) =
          (.error (.backend "shut down"), s, w) := by
        simp [Collaborators.guarded,Collaborators.watched,hshut,hopen]
      rw [hguard]
      exact ⟨hs,hw,hc⟩
    | false =>
      have hguard : (c.watched closed).guarded.chat request (s, w) =
          (c.watched closed).chat request (s, w) := by
        simp [Collaborators.guarded,Collaborators.watched,hshut,hopen]
      rw [hguard]
      exact ⟨h.chat hs request,Watch.see_open hw hopen trivial fun _ => trivial⟩
  answer := by
    rintro ⟨s,w⟩ ⟨hs,hw,hc⟩ call
    cases hopen : w.isClosed with
    | true =>
      have hrefused := h.refused hs (hc.symm.trans hopen) call
      simp only [Collaborators.guarded,Collaborators.watched,hrefused]
      refine ⟨hs,?_⟩
      rw [← hc,hopen]
      exact Watch.see_closed hw hopen rfl
    | false =>
      obtain ⟨hgood,⟨output,hout⟩,hclose⟩ := h.served hs (hc.symm.trans hopen) call
      simp only [Collaborators.guarded,Collaborators.watched,hout]
      exact ⟨hgood,Watch.see_open hw hopen trivial hclose⟩
  remember := by
    rintro ⟨s,w⟩ ⟨hs,hw,hc⟩ m
    obtain ⟨hgood,hsame⟩ := h.remember hs m
    simp only [Collaborators.guarded,Collaborators.watched,hsame,← hc]
    exact ⟨hgood,Watch.see_plain hw trivial trivial⟩
  reserve := by
    rintro ⟨s,w⟩ ⟨hs,hw,hc⟩ m n
    obtain ⟨hgood,hsame⟩ := h.reserve hs m n
    cases hroom : (c.reserve m n s).1 with
    | true =>
      simp only [Collaborators.guarded,Collaborators.watched,hroom,hsame,← hc]
      exact ⟨hgood,hw,rfl⟩
    | false =>
      simp only [Collaborators.guarded,Collaborators.watched,hroom,hsame,← hc]
      exact ⟨hgood,Watch.see_plain hw trivial trivial⟩
  count := by
    rintro ⟨s,w⟩ ⟨hs,hw,hc⟩ n
    obtain ⟨hgood,hsame⟩ := h.count hs n
    simp only [Collaborators.guarded,Collaborators.watched,hsame,← hc]
    exact ⟨hgood,Watch.see_plain hw trivial trivial⟩
  publish := by
    rintro ⟨s,w⟩ ⟨hs,hw,hc⟩ e
    obtain ⟨hgood,hsame⟩ := h.publish hs e
    simp only [Collaborators.guarded,Collaborators.watched,hsame,← hc]
    exact ⟨hgood,Watch.see_plain hw trivial trivial⟩

theorem watch_lawful (h : c.Closes Good closed hasTools released) (a : Profile) (input : String)
    {s : σ} (hs : Good s) (hopen : closed s = false) :
    Good (run c a input s).2 ∧ (watch c closed a input s).Lawful hasTools released ∧
      (watch c closed a input s).isClosed = closed (run c a input s).2 := by
  have hstart : Watch.Lawful hasTools released (.waiting []) := fun y hy => nomatch hy
  have hp := run_preserves (watched_preserves h) a input (s := (s, .waiting []))
    ⟨hs,hstart,hopen.symm⟩
  rw [run_guarded fun n s => h.counting n s.1,(run_watched c closed a input s).1] at hp
  exact hp

end Watched
end Run
end ReasonAct
