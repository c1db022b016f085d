import ReasonAct.Proofs.Run.Closing
set_option autoImplicit false

namespace ReasonAct

structure Conclusion where
  status : RunStatus
  response : Option String
  iterations : Nat
  error : Option ErrorCode
  errorMessage : Option String
  deriving DecidableEq

def RunResult.conclusion (r : RunResult) : Conclusion :=
  ⟨r.status, r.response, r.iterations.toNat, r.error, r.errorMessage⟩

namespace Run

/-- The response neither ends the run nor calls a tool, and it says nothing. -/
def isEmpty (r : ChatResponse) : Bool := !r.isStop && !r.hasToolCalls && r.text.isNone

def isDecisive : Except ProviderError ChatResponse → Bool
  | .error _ => true
  | .ok r => isFinal r || isEmpty r

def usedUp (max : Nat) : Conclusion :=
  ⟨.maxIterations, some maxIterationsResponse, max, none, none⟩

def decided (max turn : Nat) : Except ProviderError ChatResponse → Conclusion
  | .error e => ⟨.error, none, turn, some e.code, some (Error.provider e).message⟩
  | .ok r => if isFinal r then ⟨.success, r.text, turn, none, none⟩ else usedUp max

/-- A run with so many turns stops at the first decisive outcome. -/
inductive Decides (max : Nat) : List (Except ProviderError ChatResponse) → Conclusion → Prop
  | first {before : List (Except ProviderError ChatResponse)}
      {o : Except ProviderError ChatResponse} (open_ : ∀ x ∈ before, isDecisive x = false)
      (last : isDecisive o = true) (within : before.length < max) :
      Decides max (before ++ [o]) (decided max (before.length + 1) o)
  | none {outcomes : List (Except ProviderError ChatResponse)}
      (open_ : ∀ x ∈ outcomes, isDecisive x = false) (all : outcomes.length = max) :
      Decides max outcomes (usedUp max)

/-- When the outcomes of the model come from a sequence, how many of them a run asks for and what it
comes to. -/
structure Concludes (max : Nat) (f : Nat → Except ProviderError ChatResponse) (calls : Nat)
    (x : Conclusion) : Prop where
  first : ∀ k < max, (∀ j < k, isDecisive (f j) = false) → isDecisive (f k) = true →
    calls = k + 1 ∧ x = decided max (k + 1) (f k)
  none : (∀ j < max, isDecisive (f j) = false) → calls = max ∧ x = usedUp max

namespace Decides

variable {max : Nat} {outcomes : List (Except ProviderError ChatResponse)} {x : Conclusion}
  {f : Nat → Except ProviderError ChatResponse}

theorem of_sequence (h : Decides max outcomes x) (hf : ∀ i o, outcomes[i]? = some o → o = f i) :
    Concludes max f outcomes.length x := by
  cases h with
  | @first before o hopen hlast hwithin =>
    have hat : f before.length = o := (hf _ _ List.getElem?_concat_length).symm
    have hearlier : ∀ j < before.length, isDecisive (f j) = false := by
      intro j hj
      rw [← hf j before[j] (by rw [List.getElem?_append_left hj,List.getElem?_eq_getElem hj])]
      exact hopen _ (List.getElem_mem hj)
    refine ⟨?_,?_⟩
    · intro k _ hk hd
      -- Of two places at which the sequence decides for the first time neither is the earlier one.
      obtain rfl : before.length = k := by
        rcases Nat.lt_trichotomy before.length k with hlt | heq | hgt
        · have hfalse := hk _ hlt
          rw [hat,hlast] at hfalse
          contradiction
        · exact heq
        · rw [hearlier k hgt] at hd
          contradiction
      simp [hat]
    · intro hnone
      have hfalse := hnone _ hwithin
      rw [hat,hlast] at hfalse
      contradiction
  | none hopen hall =>
    refine ⟨?_,fun _ => ⟨hall,rfl⟩⟩
    intro k hk _ hd
    have hlt : k < outcomes.length := by omega
    rw [← hf k outcomes[k] (List.getElem?_eq_getElem hlt),hopen _ (List.getElem_mem hlt)] at hd
    contradiction

end Decides

section Course

variable (a : Profile) (tools : Option String)

@[simp] def Ending.outcome? : Ending → Option (Except ProviderError ChatResponse)
  | .exhausted | .aborted => none
  | .unreached e _ => some (.error e)
  | .silent r | .final r | .unspoken r _ => some (.ok r.response)
  | .broken g _ => some (.ok g.response)

theorem outcomes_round (p : Progress) (g : Round) :
    Act.outcomes (g.acts a tools p) = [.ok g.response] := by
  simp [Round.acts,heardActs,toldActs]

theorem outcomes_ending (p : Progress) (e : Ending) :
    Act.outcomes (e.acts a tools p) = e.outcome?.toList := by
  cases e with
  | broken g b =>
    have h := outcomes_round a tools p g
    cases b <;> simp [Ending.acts,Break.acts,h]
  | _ => simp [Ending.acts,heardActs]

theorem outcomes_course (o : Course) (p : Progress) :
    Act.outcomes (o.acts a tools p) =
      o.rounds.map (fun g => .ok g.response) ++ o.ending.outcome?.toList := by
  rw [List.map_eq_flatMap]
  exact view_course a tools _ (fun _ => rfl) (outcomes_round a tools)
    (outcomes_ending a tools) o p

theorem iterations_rounds (gs : List Round) (p : Progress)
    (h : p.iterations.toNat + gs.length < UInt32.size) :
    (gs.foldl Round.after p).iterations.toNat = p.iterations.toNat + gs.length := by
  induction gs generalizing p with
  | nil => rfl
  | cons g gs ih =>
    have hnext : (g.after p).iterations.toNat = p.iterations.toNat + 1 := by
      simp only [Round.after,UInt32.toNat_add,List.length_cons] at h ⊢
      exact Nat.mod_eq_of_lt (by simp [UInt32.size] at h ⊢; omega)
    simp only [List.foldl_cons,List.length_cons] at h ⊢
    rw [ih _ (by omega),hnext]
    omega

theorem Round.Complete.not_isDecisive {g : Round} (h : g.Complete) :
    isDecisive (.ok g.response) = false := by
  simp [isDecisive,isEmpty,h.goesOn,h.calls]

theorem outcomes_within {o : Course} {left : Nat} (h : o.Within left) (p : Progress) :
    (Act.outcomes (o.acts a tools p)).length ≤ left := by
  have hbound := h.bound
  rw [outcomes_course,List.length_append,List.length_map]
  cases he : o.ending with
  | exhausted => simpa using hbound
  | _ =>
    have hlt : o.rounds.length ≠ left := mt h.exhausted.mpr (by simp [he])
    simp
    omega

theorem mem_course_of_mem_ending (e : Ending) (now : Instant) (gs : List Round) (p : Progress) :
    ∃ q, ∀ y ∈ e.acts a tools q, y ∈ actsFrom a tools e now gs p := by
  induction gs generalizing p with
  | nil => exact ⟨p,fun y hy => List.mem_append_left _ hy⟩
  | cons g gs ih =>
    obtain ⟨q,hq⟩ := ih (g.after p)
    exact ⟨q,fun y hy => List.mem_append_right _ (hq y hy)⟩

def Ending.Undisturbed : Ending → Prop
  | .exhausted | .unreached _ _ | .silent _ | .final _ => True
  | .aborted | .unspoken _ _ | .broken _ _ => False

theorem course_decides (o : Course) (past : List Message) (now : Instant) (input : String)
    (hwithin : o.Within a.maxIterations.toNat) (hend : o.ending.Undisturbed) :
    Decides a.maxIterations.toNat (Act.outcomes (o.acts a tools (heard past now input)))
      (o.result a (heard past now input)).conclusion := by
  have hsize := a.maxIterations.toNat_lt
  have hrounds := iterations_rounds o.rounds (heard past now input)
  have hbound := hwithin.bound
  have hopen : ∀ x ∈ o.rounds.map fun g => (.ok g.response : Except ProviderError ChatResponse),
      isDecisive x = false := by
    intro x hx
    obtain ⟨g,hg,rfl⟩ := List.mem_map.mp hx
    exact (o.complete g hg).not_isDecisive
  have hlen : (o.rounds.map fun g => (.ok g.response : Except ProviderError ChatResponse)).length =
      o.rounds.length := List.length_map _
  rw [outcomes_course]
  -- Unless the turns are used up there is one more turn, which is within the bound.
  have hlast (hne : o.ending ≠ .exhausted) : o.rounds.length < a.maxIterations.toNat ∧
      ((o.rounds.foldl Round.after (heard past now input)).iterations + 1).toNat =
        o.rounds.length + 1 := by
    have hlt : o.rounds.length < a.maxIterations.toNat := by
      have hx := mt hwithin.exhausted.mpr hne
      omega
    refine ⟨hlt,?_⟩
    rw [UInt32.toNat_add,hrounds (by simp [heard,UInt32.size]; omega)]
    simp [heard]
    omega
  have hfirst {bound : Nat} (x : Except ProviderError ChatResponse) (hx : isDecisive x = true)
      (hlt : o.rounds.length < bound) := Decides.first hopen hx (hlen ▸ hlt)
  have hpossible := o.possible
  unfold Course.result
  cases he : o.ending with
  | exhausted =>
    simpa [Ending.result,RunResult.conclusion,usedUp] using
      Decides.none hopen (hlen.trans (hwithin.exhausted.mp he))
  | unreached e askedAt =>
    obtain ⟨hlt,hturn⟩ := hlast (by simp [he])
    simpa [Ending.result,RunResult.conclusion,decided,hturn,hlen,Error.code] using
      hfirst (.error e) rfl hlt
  | final r =>
    obtain ⟨hlt,hturn⟩ := hlast (by simp [he])
    have hfinal : isFinal r.response = true := by simpa [he] using hpossible
    simpa [Ending.result,RunResult.conclusion,decided,hturn,hlen,hfinal] using
      hfirst (.ok r.response) (by simp [isDecisive,hfinal]) hlt
  | silent r =>
    obtain ⟨hlt,-⟩ := hlast (by simp [he])
    obtain ⟨hfinal,hcalls⟩ : isFinal r.response = false ∧ r.response.hasToolCalls = false := by
      simpa [he] using hpossible
    have hempty : isEmpty r.response = true := by simpa [isEmpty,isFinal,hcalls] using hfinal
    simpa [Ending.result,RunResult.conclusion,decided,hfinal,usedUp] using
      hfirst (.ok r.response) (by simp [isDecisive,hempty]) hlt
  | aborted => simp [he,Ending.Undisturbed] at hend
  | unspoken r x => simp [he,Ending.Undisturbed] at hend
  | broken g b => simp [he,Ending.Undisturbed] at hend

end Course

section Closing

variable {σ : Type} {c : Collaborators σ}

theorem settle_aborted {P : σ → Prop} (a : Profile) {next : Progress → σ → RunResult × σ}
    (hn : ∀ p s, (next p s).1.status = .aborted → P (next p s).2) (r : ChatResponse) (p : Progress)
    (s : σ) (h : (settle c a next r p s).1.status = .aborted) :
    P (settle c a next r p s).2 := by
  revert h
  unfold settle
  dsimp only
  split
  · split <;> exact fun h => nomatch h
  split
  · exact fun h => nomatch h
  split
  · exact fun h => nomatch h
  split
  · exact fun h => nomatch h
  · exact hn _ _

theorem turns_aborted {P : σ → Prop} (hs : ∀ s, c.isShutDown s = true → ∀ e, P (c.publish e s))
    (a : Profile) (tools : Option String) (left : Nat) (p : Progress) (s : σ)
    (h : (turns c a tools left p s).1.status = .aborted) :
    P (turns c a tools left p s).2 := by
  induction left generalizing p s with
  | zero => exact nomatch h
  | succ left ih =>
    revert h
    unfold turns
    split
    · rename_i hshut
      exact fun _ => hs s hshut _
    dsimp only
    split
    · exact fun h => nomatch h
    · exact settle_aborted a ih _ _ _

theorem run_aborted {P : σ → Prop} (hs : ∀ s, c.isShutDown s = true → ∀ e, P (c.publish e s))
    (a : Profile) (input : String) (s : σ) {result : RunResult}
    (hr : (run c a input s).1 = .ok result) (h : result.status = .aborted) :
    P (run c a input s).2 := by
  obtain ⟨hb,hopen⟩ := run_ok_iff.mp ⟨result,hr⟩
  revert hr
  simp only [run,hb,hopen,Bool.false_eq_true,if_false]
  split
  · intro hr
    obtain rfl := Except.ok.inj hr
    cases h
  · intro hr
    obtain rfl := Except.ok.inj hr
    exact turns_aborted hs a _ _ _ _ h

theorem run_error (a : Profile) (input : String) (s : σ) {e : Error}
    (h : (run c a input s).1 = .error e) :
    e = (if Text.blank input then .invalidArgument "input must not be empty"
      else sessionClosed a.sessionId) ∧
    (Text.blank input = true ∨ c.isShutDown s = true) ∧
    (run c a input s).2 = s ∧ trace c a input s = [] := by
  have hshut : c.observed.isShutDown (s, []) = c.isShutDown s := rfl
  have hwhy : Text.blank input = true ∨ c.isShutDown s = true := by
    cases hb : Text.blank input with
    | true => exact .inl rfl
    | false =>
      cases hc : c.isShutDown s with
      | true => exact .inr rfl
      | false =>
        obtain ⟨result,hr⟩ := run_ok_iff.mpr ⟨hb,hc⟩
        rw [hr] at h
        contradiction
  cases hb : Text.blank input with
  | true =>
    simp only [run,hb,if_true] at h
    exact ⟨(Except.error.inj h).symm,by simp,by simp [run,hb],by simp [trace,run,hb]⟩
  | false =>
    have hc : c.isShutDown s = true := by simpa [hb] using hwhy
    simp only [run,hb,hc,if_true,Bool.false_eq_true,if_false] at h
    exact ⟨(Except.error.inj h).symm,.inr hc,by simp [run,hb,hc],by simp [trace,run,hb,hshut,hc]⟩

theorem run_outcomes_le (c : Collaborators σ) (a : Profile) (input : String)
    (s : σ) : (Act.outcomes (trace c a input s)).length ≤ a.maxIterations.toNat := by
  cases hr : (run c a input s).1 with
  | error e =>
    obtain ⟨-,-,-,htrace⟩ := run_error a input s hr
    simp [htrace]
  | ok result =>
    rcases run_course_within c a input s hr with
      ⟨x,s₁,finishedAt,-,-,htrace⟩ | ⟨o,s₁,-,h,-,htrace⟩
    · simp [htrace,opening]
    · simpa [htrace,opening] using outcomes_within a (c.schema s₁) h
        (heard (c.history (opened c a s)) (c.clock (opened c a s)) input)

variable {Good : σ → Prop} {closed : σ → Bool} {hasTools : Bool} {released : Error}

/-- While nothing is closed and every message is recorded, the outcomes of the model alone decide
how the run ends. -/
theorem run_undisturbed (h : c.Closes Good closed hasTools released)
    (hpublish : ∀ e s, c.isShutDown (c.publish e s) = c.isShutDown s) (a : Profile)
    (input : String) {s : σ} (hs : Good s) (hopen : closed (run c a input s).2 = false)
    {result : RunResult} (hr : (run c a input s).1 = .ok result)
    (htaken : Act.refused (trace c a input s) = []) :
    ∃ (o : Course) (tools : Option String) (past : List Message) (startedAt now : Instant),
      o.Within a.maxIterations.toNat ∧ o.ending.Undisturbed ∧
      result = o.result a (heard past now input) ∧
      trace c a input s = opening a startedAt ++ .remembered (.user input now) (.ok ()) ::
        o.acts a tools (heard past now input) := by
  have hfirst : closed s = false := by
    obtain ⟨-,hshut⟩ := run_ok_iff.mp ⟨result,hr⟩
    rwa [h.shut hs] at hshut
  obtain ⟨hgood,hlawful,hwatch⟩ := watch_lawful h a input hs hfirst
  obtain ⟨-,hacts⟩ := run_watched c closed a input s
  rcases run_course_within c a input s hr with
    ⟨x,s₁,finishedAt,-,-,hcourse⟩ | ⟨o,s₁,-,hwithin,rfl,hcourse⟩
  · simp [hcourse,opening] at htaken
  refine ⟨o,_,_,_,_,hwithin,?_,rfl,hcourse⟩
  have hrefused : o.ending.refused = none := by
    simpa [hcourse,opening,refused_course] using htaken
  have hserved : ∀ y ∈ trace c a input s, y.Served := by
    rw [hopen] at hwatch
    cases hw : watch c closed a input s with
    | closed before x after => simp [hw,Watch.isClosed] at hwatch
    | waiting acts =>
      rw [hw] at hlawful hacts
      exact hacts ▸ hlawful
  cases he : o.ending with
  | exhausted | unreached e askedAt | silent r | final r => trivial
  | aborted =>
    have hshut := run_aborted (P := fun s => c.isShutDown s = true)
      (fun s hs e => (hpublish e s).trans hs) a input s hr
      (by simp [Course.result,Ending.result,he])
    rw [h.shut hgood,hopen] at hshut
    contradiction
  | unspoken r x => simp [he,Ending.refused] at hrefused
  | broken g b =>
    cases b with
    | untold call output x => simp [he,Ending.refused] at hrefused
    | unanswered call e =>
      obtain ⟨q,hq⟩ := mem_course_of_mem_ending a (c.schema s₁) o.ending o.finishedAt o.rounds
        (heard (c.history (opened c a s)) (c.clock (opened c a s)) input)
      have hmem := hq (.answered call (.error e)) (by simp [he,Ending.acts,Break.acts])
      have htrace : .answered call (.error e) ∈ trace c a input s := by
        rw [hcourse]
        simp [Course.acts,hmem]
      exact absurd (hserved _ htrace) id

theorem run_decides (h : c.Closes Good closed hasTools released)
    (hpublish : ∀ e s, c.isShutDown (c.publish e s) = c.isShutDown s) (a : Profile)
    (input : String) {s : σ} (hs : Good s) (hopen : closed (run c a input s).2 = false)
    {result : RunResult} (hr : (run c a input s).1 = .ok result)
    (htaken : Act.refused (trace c a input s) = []) :
    Decides a.maxIterations.toNat (Act.outcomes (trace c a input s)) result.conclusion := by
  obtain ⟨o,tools,past,startedAt,now,hwithin,hend,rfl,htrace⟩ :=
    run_undisturbed h hpublish a input hs hopen hr htaken
  simpa [htrace,opening] using course_decides a tools o past now input hwithin hend

end Closing
end Run

section Counter

variable {σ β : Type} {c : Collaborators σ} {Good : σ → Prop} {counter : σ → Option UInt32}

/-- The same surroundings, which note what shows of them before the last call of the model, and
what shows behind it. -/
def Collaborators.seeing (view : σ → β) (c : Collaborators σ) :
    Collaborators (σ × Option (β × β)) where
  chat request s :=
    let (outcome, t) := c.chat request s.1
    (outcome, t, some (view s.1, view t))
  answer call s :=
    let (outcome, t) := c.answer call s.1
    (outcome, t, s.2)
  remember m s :=
    let (outcome, t) := c.remember m s.1
    (outcome, t, s.2)
  reserve m n s :=
    let (room, t) := c.reserve m n s.1
    (room, t, s.2)
  history s := c.history s.1
  schema s := c.schema s.1
  isShutDown s := c.isShutDown s.1
  clock s := c.clock s.1
  count n s := (c.count n s.1, s.2)
  publish e s := (c.publish e s.1, s.2)

theorem Collaborators.observed_seeing_agrees (view : σ → β) (c : Collaborators σ) :
    (c.observed.seeing (view ·.1)).Agrees (c.seeing view) (fun x y => x.1.1 = y.1 ∧ x.2 = y.2) where
  chat := by rintro ⟨⟨s,acts⟩,seen⟩ ⟨_,_⟩ ⟨rfl,rfl⟩ request; exact ⟨rfl,rfl,rfl⟩
  answer := by rintro ⟨⟨s,acts⟩,seen⟩ ⟨_,_⟩ ⟨rfl,rfl⟩ call; exact ⟨rfl,rfl,rfl⟩
  remember := by rintro ⟨⟨s,acts⟩,seen⟩ ⟨_,_⟩ ⟨rfl,rfl⟩ m; exact ⟨rfl,rfl,rfl⟩
  reserve := by rintro ⟨⟨s,acts⟩,seen⟩ ⟨_,_⟩ ⟨rfl,rfl⟩ m n; exact ⟨rfl,rfl,rfl⟩
  history := by rintro ⟨⟨s,acts⟩,seen⟩ ⟨_,_⟩ ⟨rfl,rfl⟩; rfl
  schema := by rintro ⟨⟨s,acts⟩,seen⟩ ⟨_,_⟩ ⟨rfl,rfl⟩; rfl
  isShutDown := by rintro ⟨⟨s,acts⟩,seen⟩ ⟨_,_⟩ ⟨rfl,rfl⟩; rfl
  clock := by rintro ⟨⟨s,acts⟩,seen⟩ ⟨_,_⟩ ⟨rfl,rfl⟩; rfl
  count := by rintro ⟨⟨s,acts⟩,seen⟩ ⟨_,_⟩ ⟨rfl,rfl⟩ n; exact ⟨rfl,rfl⟩
  publish := by rintro ⟨⟨s,acts⟩,seen⟩ ⟨_,_⟩ ⟨rfl,rfl⟩ e; exact ⟨rfl,rfl⟩

theorem Collaborators.seeing_agrees (view : σ → β) (c : Collaborators σ) :
    (c.seeing view).Agrees c (fun x s => x.1 = s) where
  chat := by rintro ⟨s,seen⟩ _ rfl request; exact ⟨rfl,rfl⟩
  answer := by rintro ⟨s,seen⟩ _ rfl call; exact ⟨rfl,rfl⟩
  remember := by rintro ⟨s,seen⟩ _ rfl m; exact ⟨rfl,rfl⟩
  reserve := by rintro ⟨s,seen⟩ _ rfl m n; exact ⟨rfl,rfl⟩
  history := by rintro ⟨s,seen⟩ _ rfl; rfl
  schema := by rintro ⟨s,seen⟩ _ rfl; rfl
  isShutDown := by rintro ⟨s,seen⟩ _ rfl; rfl
  clock := by rintro ⟨s,seen⟩ _ rfl; rfl
  count := by rintro ⟨s,seen⟩ _ rfl n; rfl
  publish := by rintro ⟨s,seen⟩ _ rfl e; rfl

/-- What is known of a counter from the acts of a run. -/
inductive Shown where
  | unknown
  | set (n : UInt32)
  /-- The model was called when the counter was set to this number. -/
  | asked (n : UInt32)

def Shown.after (x : Shown) : Act → Shown
  | .counted n => .set n
  | .asked _ _ =>
    match x with
    | .set n => .asked n
    | _ => .unknown
  | .answered _ _ => .unknown
  | _ => x

def Shown.Holds (shows : Option UInt32) (seen : Option (Option UInt32 × Option UInt32)) :
    Shown → Prop
  | .unknown => True
  | .set n => shows = some n
  | .asked n => seen = some (some n, shows)

/-- A counter that is set by counting, and left alone by memory and bus. -/
structure Collaborators.Counts (c : Collaborators σ) (Good : σ → Prop)
    (counter : σ → Option UInt32) : Prop where
  preserves : c.Preserves Good
  count : ∀ {s}, Good s → ∀ n, counter (c.count n s) = some n
  remember : ∀ m s, counter (c.remember m s).2 = counter s
  reserve : ∀ m n s, counter (c.reserve m n s).2 = counter s
  publish : ∀ e s, counter (c.publish e s) = counter s

theorem Collaborators.Counts.seeing (h : c.Counts Good counter) :
    (c.observed.seeing (counter ·.1)).Preserves fun x =>
      Good x.1.1 ∧ (x.1.2.foldl Shown.after .unknown).Holds (counter x.1.1) x.2 where
  chat := by
    rintro ⟨⟨s,acts⟩,seen⟩ ⟨hs,hshown⟩ request
    refine ⟨h.preserves.chat hs request,?_⟩
    dsimp only at hshown
    simp only [Collaborators.seeing,Collaborators.observed,List.foldl_append,List.foldl_cons,
      List.foldl_nil]
    cases hx : acts.foldl Shown.after .unknown with
    | set n =>
      rw [hx] at hshown
      have hset : counter s = some n := hshown
      simp [Shown.after,Shown.Holds,hset]
    | unknown | asked n => trivial
  answer := by
    rintro ⟨⟨s,acts⟩,seen⟩ ⟨hs,-⟩ call
    refine ⟨h.preserves.answer hs call,?_⟩
    simp [Collaborators.seeing,Collaborators.observed,Shown.after,Shown.Holds]
  remember := by
    rintro ⟨⟨s,acts⟩,seen⟩ ⟨hs,hshown⟩ m
    refine ⟨h.preserves.remember hs m,?_⟩
    simpa [Collaborators.seeing,Collaborators.observed,Shown.after,h.remember] using hshown
  reserve := by
    rintro ⟨⟨s,acts⟩,seen⟩ ⟨hs,hshown⟩ m n
    refine ⟨h.preserves.reserve hs m n,?_⟩
    cases hroom : (c.reserve m n s).1 <;>
      simpa [Collaborators.seeing,Collaborators.observed,Shown.after,h.reserve,hroom] using hshown
  count := by
    rintro ⟨⟨s,acts⟩,seen⟩ ⟨hs,-⟩ n
    refine ⟨h.preserves.count hs n,?_⟩
    simpa [Collaborators.seeing,Collaborators.observed,Shown.after,Shown.Holds] using h.count hs n
  publish := by
    rintro ⟨⟨s,acts⟩,seen⟩ ⟨hs,hshown⟩ e
    refine ⟨h.preserves.publish hs e,?_⟩
    simpa [Collaborators.seeing,Collaborators.observed,Shown.after,h.publish] using hshown

namespace Run

def lastCall (c : Collaborators σ) (view : σ → β) (a : Profile) (input : String) (s : σ) :
    Option (β × β) := (run (c.seeing view) a input (s, none)).2.2

theorem run_seeing (c : Collaborators σ) (view : σ → β) (a : Profile) (input : String) (s : σ) :
    (run (c.observed.seeing (view ·.1)) a input ((s, []), none)).2 =
      (((run c a input s).2, trace c a input s), lastCall c view a input s) := by
  have hstate := run_alike (c.observed.seeing_agrees (view ·.1)) a input
    (show (((s, []), none) : (σ × List Act) × Option (β × β)).1 = (s, []) from rfl)
  have hseen := run_alike (c.observed_seeing_agrees view) a input
    (show (((s, []), none) : (σ × List Act) × Option (β × β)).1.1 =
        ((s, none) : σ × Option (β × β)).1 ∧
      (((s, []), none) : (σ × List Act) × Option (β × β)).2 = none from ⟨rfl,rfl⟩)
  rw [run_observed] at hstate
  exact Prod.ext hstate.2 hseen.2.2

/-- In the last turn the counter is set, the model is called, and nothing else touches it. When the
turns are used up it is set once more. -/
theorem shown_course (a : Profile) (tools : Option String) {e : Ending} (he : e.Undisturbed)
    (now : Instant) (gs : List Round) (p : Progress) (x : Shown) :
    (actsFrom a tools e now gs p).foldl Shown.after x =
      let n := e.iterations a (gs.foldl Round.after p)
      if e.status = .maxIterations then .set n else .asked n := by
  induction gs generalizing p x with
  | cons g gs ih => simpa [actsFrom] using ih (g.after p) _
  | nil =>
    cases e with
    | aborted => exact absurd he id
    | unspoken r x => exact absurd he id
    | broken g b => exact absurd he id
    | _ => simp [actsFrom,Ending.acts,heardActs,Shown.after]

/-- After a run that was neither closed nor refused anything the counter shows its turns, unless
the last call of the model has changed it. -/
theorem run_counter (h : c.Counts Good counter) (a : Profile) (input : String) {s : σ} (hs : Good s)
    {past : List Message} {startedAt now : Instant} {tools : Option String} {o : Course}
    (ho : o.ending.Undisturbed)
    (htrace : trace c a input s = opening a startedAt ++ .remembered (.user input now) (.ok ()) ::
      o.acts a tools (heard past now input)) :
    let result := o.result a (heard past now input)
    if result.status = .maxIterations then
      counter (run c a input s).2 = some result.iterations
    else lastCall c counter a input s =
      some (some result.iterations, counter (run c a input s).2) := by
  have hinv := run_preserves h.seeing a input (s := ((s, []), none)) ⟨hs,trivial⟩
  rw [run_seeing] at hinv
  have hshown := hinv.2
  simp only [htrace,List.foldl_append,List.foldl_cons,Course.acts,shown_course a tools ho]
    at hshown
  dsimp only [Course.result,Ending.result]
  split
  · rename_i hstatus
    rwa [if_pos hstatus] at hshown
  · rename_i hstatus
    rwa [if_neg hstatus] at hshown

end Run
end Counter
end ReasonAct
