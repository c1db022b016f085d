import ReasonAct.Proofs.Run.Trace
set_option autoImplicit false

namespace ReasonAct.Run

structure Reply where
  response : ChatResponse
  askedAt : Instant
  heardAt : Instant
  spokenAt : Instant

structure Output where
  text : String
  executedAt : Instant
  toldAt : Instant

def spoken (r : Reply) : Message :=
  ⟨.assistant, r.response.content, r.response.blocks, none, r.response.calls, r.spokenAt⟩

def told (x : ToolCall × Output) : Message :=
  ⟨.tool, some x.2.text, [.toolResult x.1.id x.2.text (isErrorPayload x.2.text)], some x.1.id, [],
    x.2.toldAt⟩

theorem spoken_eq (r : Reply) : r.response.message r.spokenAt = spoken r := rfl

@[simp] theorem spoken_text (r : Reply) : (spoken r).text = r.response.text := rfl

/-- A response and the outputs of its calls, in the order of the calls. -/
structure Round extends Reply where
  outputs : List Output

namespace Round

def results (g : Round) : List (ToolCall × Output) := g.response.calls.zip g.outputs

def answers (g : Round) : List (ToolCall × String) := g.results.map (Prod.map id Output.text)

def messages (g : Round) : List Message := spoken g.toReply :: g.results.map told

/-- After such a round the model is asked again. -/
structure Complete (g : Round) : Prop where
  goesOn : isFinal g.response = false
  calls : g.response.hasToolCalls = true
  all : g.outputs.length = g.response.calls.length

end Round

/-- Why a message does not enter the transcript. The history grows behind the memory. -/
inductive Refusal where
  | forgotten (e : Error)
  | overflowed

namespace Refusal

def error : Refusal → Error
  | .forgotten e => e
  | .overflowed => historyFull

def acts (m : Message) : Refusal → List Act
  | .forgotten e => [.remembered m (.error e)]
  | .overflowed => [.remembered m (.ok ()), .overflowed m]

/-- What the memory has of the message all the same. -/
def left (m : Message) : Refusal → List Message
  | .forgotten _ => []
  | .overflowed => [m]

variable (x : Refusal) (m : Message)

@[simp] theorem responses_acts : Act.responses (x.acts m) = [] := by cases x <;> rfl
@[simp] theorem outputs_acts : Act.outputs (x.acts m) = [] := by cases x <;> rfl
@[simp] theorem requests_acts : Act.requests (x.acts m) = [] := by cases x <;> rfl
@[simp] theorem outcomes_acts : Act.outcomes (x.acts m) = [] := by cases x <;> rfl
@[simp] theorem offered_acts : Act.offered (x.acts m) = [m] := by cases x <;> rfl
@[simp] theorem taken_acts : Act.taken (x.acts m) = x.left m := by cases x <;> rfl
@[simp] theorem overflows_acts : Act.overflows (x.acts m) = x.left m := by cases x <;> rfl
@[simp] theorem refused_acts : Act.refused (x.acts m) = [(m, x.error)] := by cases x <;> rfl

end Refusal

/-- What stops a round before its end: a call that is not answered, or an answer not recorded. -/
inductive Break where
  | unanswered (call : ToolCall) (e : Error)
  | untold (call : ToolCall) (output : Output) (x : Refusal)

def Break.call : Break → ToolCall
  | .unanswered call _ | .untold call _ _ => call

def Break.error : Break → Error
  | .unanswered _ e => e
  | .untold _ _ x => x.error

inductive Ending where
  | exhausted
  | aborted
  | unreached (e : ProviderError) (askedAt : Instant)
  | silent (r : Reply)
  | final (r : Reply)
  | unspoken (r : Reply) (x : Refusal)
  | broken (g : Round) (b : Break)

namespace Ending

@[simp] def Possible : Ending → Prop
  | .exhausted | .aborted | .unreached _ _ => True
  | .silent r => isFinal r.response = false ∧ r.response.hasToolCalls = false
  | .final r => isFinal r.response = true
  | .unspoken r _ => isFinal r.response = true ∨ r.response.hasToolCalls = true
  | .broken g b => isFinal g.response = false ∧ g.response.calls[g.outputs.length]? = some b.call

@[simp] def status : Ending → RunStatus
  | .exhausted | .silent _ => .maxIterations
  | .aborted => .aborted
  | .final _ => .success
  | .unreached _ _ | .unspoken _ _ | .broken _ _ => .error

@[simp] def response? : Ending → Option ChatResponse
  | .exhausted | .aborted | .unreached _ _ => none
  | .silent r | .final r | .unspoken r _ => some r.response
  | .broken g _ => some g.response

@[simp] def reply : Ending → Option String
  | .exhausted | .silent _ => some maxIterationsResponse
  | .final r => r.response.text
  | _ => none

@[simp] def error : Ending → Option Error
  | .unreached e _ => some (.provider e)
  | .unspoken _ x => some x.error
  | .broken _ b => some b.error
  | _ => none

def results : Ending → List (ToolCall × Output)
  | .broken g _ => g.results
  | _ => []

def answers (e : Ending) : List (ToolCall × String) := e.results.map (Prod.map id Output.text)

/-- The answer that was not recorded. -/
def untold : Ending → Option (ToolCall × Output)
  | .broken _ (.untold call output _) => some (call, output)
  | _ => none

@[simp] def messages : Ending → List Message
  | .final r => [spoken r]
  | .broken g _ => g.messages
  | _ => []

@[simp] def iterations (a : Profile) (p : Progress) : Ending → UInt32
  | .exhausted | .silent _ => a.maxIterations
  | .aborted => p.iterations
  | _ => p.iterations + 1

@[simp] def usage (p : Progress) (e : Ending) : Usage :=
  match e.response? with
  | some r => p.usage.accumulate r.usage
  | none => p.usage

def result (a : Profile) (p : Progress) (e : Ending) : RunResult :=
  ⟨e.status, e.reply, e.iterations a p, e.usage p, e.error.map Error.code,
    e.error.map Error.message, p.transcript ++ e.messages⟩

end Ending

/-- What remains of a run: any number of rounds, and an end. -/
structure Course where
  rounds : List Round
  ending : Ending
  finishedAt : Instant
  complete : ∀ g ∈ rounds, g.Complete
  possible : ending.Possible

/-- The course takes up no more turns than there are, and is exhausted when it takes up all. -/
structure Course.Within (left : Nat) (o : Course) : Prop where
  bound : o.rounds.length ≤ left
  exhausted : o.ending = .exhausted ↔ o.rounds.length = left

section Acts

def executed (x : ToolCall × Output) : Event :=
  .toolExecuted x.1.name (isErrorPayload x.2.text) 0 x.2.executedAt

def toldActs (x : ToolCall × Output) : List Act :=
  [.answered x.1 (.ok x.2.text), .published (executed x), .remembered (told x) (.ok ())]

def Break.acts : Break → List Act
  | .unanswered call e => [.answered call (.error e)]
  | .untold call output x => .answered call (.ok output.text) ::
      .published (executed (call, output)) :: x.acts (told (call, output))

def Round.after (p : Progress) (g : Round) : Progress :=
  ⟨p.past, p.transcript ++ g.messages, p.usage.accumulate g.response.usage, p.iterations + 1⟩

variable (a : Profile) (tools : Option String)

def heardActs (p : Progress) (r : Reply) : List Act :=
  [.counted (p.iterations + 1), .asked (request a r.askedAt tools p) (.ok r.response),
    .published (.llmResponded a.name (p.iterations + 1) r.response.finishReason
      r.response.usage.total r.heardAt)]

def Round.acts (p : Progress) (g : Round) : List Act :=
  heardActs a tools p g.toReply ++
    .remembered (spoken g.toReply) (.ok ()) :: g.results.flatMap toldActs

def Ending.acts (p : Progress) : Ending → List Act
  | .exhausted => [.counted a.maxIterations]
  | .aborted => []
  | .unreached e askedAt =>
    [.counted (p.iterations + 1), .asked (request a askedAt tools p) (.error e)]
  | .silent r => heardActs a tools p r ++ [.counted a.maxIterations]
  | .final r => heardActs a tools p r ++ [.remembered (spoken r) (.ok ())]
  | .unspoken r x => heardActs a tools p r ++ x.acts (spoken r)
  | .broken g b => g.acts a tools p ++ b.acts

def finished (now : Instant) (r : RunResult) : Event :=
  .runFinished a.name r.status r.iterations r.usage.total now

def actsFrom (e : Ending) (now : Instant) : List Round → Progress → List Act
  | [], p => e.acts a tools p ++ [.published (finished a now (e.result a p))]
  | g :: gs, p => g.acts a tools p ++ actsFrom e now gs (g.after p)

def Course.acts (o : Course) (p : Progress) : List Act :=
  actsFrom a tools o.ending o.finishedAt o.rounds p

def Course.result (o : Course) (p : Progress) : RunResult :=
  o.ending.result a (o.rounds.foldl Round.after p)

theorem transcript_rounds (gs : List Round) (p : Progress) :
    (gs.foldl Round.after p).transcript = p.transcript ++ gs.flatMap Round.messages := by
  induction gs generalizing p with
  | nil => simp
  | cons g gs ih => simp [ih,Round.after]

theorem responses_round (p : Progress) (g : Round) :
    Act.responses (g.acts a tools p) = [g.response] := by
  simp [Round.acts,heardActs,toldActs]

theorem outputs_round (p : Progress) (g : Round) : Act.outputs (g.acts a tools p) = g.answers := by
  simp [Round.acts,heardActs,toldActs,Round.answers,List.map_eq_flatMap,Prod.map]

theorem responses_ending (p : Progress) (e : Ending) :
    Act.responses (e.acts a tools p) = e.response?.toList := by
  cases e with
  | broken g b =>
    have h := responses_round a tools p g
    cases b <;> simp [Ending.acts,Break.acts,h]
  | _ => simp [Ending.acts,heardActs]

theorem outputs_ending (p : Progress) (e : Ending) : Act.outputs (e.acts a tools p) =
    e.answers ++ (e.untold.map (Prod.map id Output.text)).toList := by
  cases e with
  | broken g b =>
    have h := outputs_round a tools p g
    cases b <;> simp [Ending.acts,Ending.answers,Ending.results,Ending.untold,Break.acts,
      Round.answers,h]
  | _ => simp [Ending.acts,Ending.answers,Ending.results,Ending.untold,heardActs]

/-- What is seen of a course, when a round shows the same wherever it stands. -/
theorem view_course {α : Type} (f : Act → Option α) (hf : ∀ e, f (.published e) = none)
    {round : Round → List α} (hround : ∀ p g, Act.view f (g.acts a tools p) = round g)
    {last : Ending → List α} (hlast : ∀ p e, Act.view f (e.acts a tools p) = last e)
    (o : Course) (p : Progress) :
    Act.view f (o.acts a tools p) = o.rounds.flatMap round ++ last o.ending := by
  unfold Course.acts
  induction o.rounds generalizing p with
  | nil => simp [actsFrom,hf,hlast]
  | cons g gs ih => simp [actsFrom,hround,ih]

theorem responses_course (o : Course) (p : Progress) :
    Act.responses (o.acts a tools p) =
      o.rounds.map (·.response) ++ o.ending.response?.toList := by
  rw [List.map_eq_flatMap]
  exact view_course a tools _ (fun _ => rfl) (responses_round a tools)
    (responses_ending a tools) o p

theorem outputs_course (o : Course) (p : Progress) :
    Act.outputs (o.acts a tools p) = o.rounds.flatMap Round.answers ++
      (o.ending.answers ++ (o.ending.untold.map (Prod.map id Output.text)).toList) :=
  view_course a tools _ (fun _ => rfl) (outputs_round a tools) (outputs_ending a tools) o p

end Acts

section Observed

variable {σ : Type} {c : Collaborators σ}

theorem observed_chat {request : ChatRequest} {s s' : σ} {acts : List Act}
    {o : Except ProviderError ChatResponse} (h : c.chat request s = (o, s')) :
    c.observed.chat request (s, acts) = (o, s', acts ++ [.asked request o]) := by
  simp [Collaborators.observed,h]

theorem observed_answer {call : ToolCall} {s s' : σ} {acts : List Act} {o : Except Error String}
    (h : c.answer call s = (o, s')) :
    c.observed.answer call (s, acts) = (o, s', acts ++ [.answered call o]) := by
  simp [Collaborators.observed,h]

@[simp] theorem observed_count (n : UInt32) (s : σ) (acts : List Act) :
    c.observed.count n (s, acts) = (c.count n s, acts ++ [.counted n]) := rfl

@[simp] theorem observed_publish (e : Event) (s : σ) (acts : List Act) :
    c.observed.publish e (s, acts) = (c.publish e s, acts ++ [.published e]) := rfl

@[simp] theorem observed_schema (x : σ × List Act) : c.observed.schema x = c.schema x.1 := rfl

@[simp] theorem observed_clock (x : σ × List Act) : c.observed.clock x = c.clock x.1 := rfl

theorem record_observed (c : Collaborators σ) (m : Message) (p : Progress) (s : σ)
    (acts : List Act) :
    ∃ t, (record c m p s = (.ok { p with transcript := p.transcript ++ [m] }, t) ∧
        record c.observed m p (s, acts) = (.ok { p with transcript := p.transcript ++ [m] }, t,
          acts ++ [.remembered m (.ok ())])) ∨
      ∃ x : Refusal, record c m p s = (.error x.error, t) ∧
        record c.observed m p (s, acts) = (.error x.error, t, acts ++ x.acts m) := by
  cases h : c.remember m s with
  | mk o s₁ =>
    cases o with
    | error e =>
      exact ⟨s₁,.inr ⟨.forgotten e,by simp [record,h,Refusal.error],
        by simp [record,Collaborators.observed,h,Refusal.error,Refusal.acts]⟩⟩
    | ok u =>
      cases hr : c.reserve m (p.past.length + p.transcript.length) s₁ with
      | mk room t =>
        cases room with
        | false =>
          exact ⟨t,.inr ⟨.overflowed,by simp [record,h,hr,Refusal.error],
            by simp [record,Collaborators.observed,h,hr,Refusal.error,Refusal.acts]⟩⟩
        | true =>
          exact ⟨t,.inl ⟨by simp [record,h,hr],by simp [record,Collaborators.observed,h,hr]⟩⟩

def tell (c : Collaborators σ) (call : ToolCall) (text : String) (s : σ) : Output × σ :=
  let t := c.publish (.toolExecuted call.name (isErrorPayload text) 0 (c.clock s)) s
  (⟨text, c.clock s, c.clock t⟩, t)

theorem tell_observed (c : Collaborators σ) (call : ToolCall) (text : String) (s : σ)
    (acts : List Act) : tell c.observed call text (s, acts) =
      ((tell c call text s).1, (tell c call text s).2,
        acts ++ [.published (executed (call, (tell c call text s).1))]) := rfl

theorem answerAll_cons (c : Collaborators σ) (call : ToolCall) (calls : List ToolCall)
    (p : Progress) (s : σ) :
    answerAll c (call :: calls) p s =
      match c.answer call s with
      | (.error e, s) => (some e, p, s)
      | (.ok text, s) =>
        match record c (told (call, (tell c call text s).1)) p (tell c call text s).2 with
        | (.error e, s) => (some e, p, s)
        | (.ok p, s) => answerAll c calls p s := rfl

theorem answerAll_course (c : Collaborators σ) (calls : List ToolCall) (p : Progress) (s : σ)
    (acts : List Act) :
    ∃ outputs s',
      (outputs.length = calls.length ∧ answerAll c.observed calls p (s, acts) =
        (none, { p with transcript := p.transcript ++ (calls.zip outputs).map told }, s',
          acts ++ (calls.zip outputs).flatMap toldActs)) ∨
      ∃ b : Break, calls[outputs.length]? = some b.call ∧
        answerAll c.observed calls p (s, acts) =
          (some b.error, { p with transcript := p.transcript ++ (calls.zip outputs).map told },
            s', acts ++ ((calls.zip outputs).flatMap toldActs ++ b.acts)) := by
  -- Every answer told adds to the acts, so these are as general as the state.
  induction calls generalizing p s acts with
  | nil => exact ⟨[],s,.inl ⟨rfl,by simp [answerAll]⟩⟩
  | cons call calls ih =>
    cases ha : c.answer call s with
    | mk o s₁ =>
      have ha : c.observed.answer call (s, acts) = (o, s₁, acts ++ [.answered call o]) :=
        observed_answer ha
      cases o with
      | error e =>
        refine ⟨[],s₁,.inr ⟨.unanswered call e,rfl,?_⟩⟩
        rw [answerAll_cons,ha]
        simp [Break.error,Break.acts]
      | ok text =>
        cases ht : tell c call text s₁ with
        | mk output t =>
          have hto : tell c.observed call text (s₁, acts ++ [.answered call (.ok text)]) =
              (output, t, acts ++ [.answered call (.ok text)] ++
                [.published (executed (call, output))]) := by rw [tell_observed,ht]
          have htext : output.text = text := congrArg (fun x => x.1.text) ht.symm
          obtain ⟨s₂,⟨-,hr⟩ | ⟨x,-,hr⟩⟩ := record_observed c (told (call, output)) p t
            (acts ++ [.answered call (.ok text)] ++ [.published (executed (call, output))])
          · obtain ⟨outputs,s₃,h⟩ := ih { p with transcript := p.transcript ++ [told (call, output)] }
              s₂ (acts ++ toldActs (call, output))
            have hstep : answerAll c.observed (call :: calls) p (s, acts) =
                answerAll c.observed calls
                  { p with transcript := p.transcript ++ [told (call, output)] }
                  (s₂, acts ++ toldActs (call, output)) := by
              rw [answerAll_cons,ha]
              dsimp only
              rw [hto,hr]
              simp [toldActs,htext]
            refine ⟨output :: outputs,s₃,?_⟩
            rw [hstep]
            rcases h with ⟨hlen,h⟩ | ⟨b,hb,h⟩
            · exact .inl ⟨by simpa using hlen,by simp [h]⟩
            · exact .inr ⟨b,by simpa using hb,by simp [h]⟩
          · refine ⟨[],s₂,.inr ⟨.untold call output x,rfl,?_⟩⟩
            rw [answerAll_cons,ha]
            dsimp only
            rw [hto,hr]
            simp [Break.error,Break.acts,htext]

theorem ending_course (c : Collaborators σ) (a : Profile) (tools : Option String) (left : Nat)
    (p : Progress) (s : σ) (acts : List Act) (e : Ending) (he : e.Possible)
    (hleft : e = .exhausted ↔ 0 = left) :
    ∃ (o : Course) (t : σ), o.Within left ∧ finish c.observed a e.status e.reply e.error
      ⟨p.past, p.transcript ++ e.messages, e.usage p, e.iterations a p⟩
      (s, acts ++ e.acts a tools p) = (o.result a p, t, acts ++ o.acts a tools p) := by
  refine ⟨⟨[],e,c.clock s,by simp,he⟩,c.publish (finished a (c.clock s) (e.result a p)) s,
    ⟨Nat.zero_le left,hleft⟩,?_⟩
  simp [finish,Course.acts,actsFrom,Course.result,Ending.result,finished]

theorem settle_course (c : Collaborators σ) (a : Profile) (tools : Option String) (left : Nat)
    (next : Progress → σ × List Act → RunResult × σ × List Act)
    (hn : ∀ p s acts, ∃ (o : Course) (t : σ), o.Within left ∧
      next p (s, acts) = (o.result a p, t, acts ++ o.acts a tools p))
    (r : Reply) (p : Progress) (s : σ) (acts : List Act) (hr : r.spokenAt = c.clock s) :
    ∃ (o : Course) (t : σ), o.Within (left + 1) ∧ settle c.observed a next r.response
        ⟨p.past,p.transcript,p.usage.accumulate r.response.usage,p.iterations+1⟩
        (s, acts ++ heardActs a tools p r) =
      (o.result a p, t, acts ++ o.acts a tools p) := by
  have close := ending_course c a tools (left + 1) p
  have hspoken : r.response.message (c.observed.clock (s, acts ++ heardActs a tools p r)) =
      spoken r := by rw [observed_clock,← hr,spoken_eq]
  obtain ⟨s₁,hr⟩ := record_observed c (spoken r)
    ⟨p.past,p.transcript,p.usage.accumulate r.response.usage,p.iterations+1⟩ s
    (acts ++ heardActs a tools p r)
  unfold settle
  rw [hspoken]
  dsimp only
  split
  · rename_i hf
    rcases hr with ⟨-,hr⟩ | ⟨x,-,hr⟩
    · rw [hr]
      simpa [Ending.acts] using close s₁ acts (.final r) hf (by simp)
    · rw [hr]
      simpa [Ending.acts,fail] using close s₁ acts (.unspoken r x) (.inl hf) (by simp)
  rename_i hf
  split
  · rename_i hs
    simpa [Ending.acts,exhausted] using close (c.count a.maxIterations s) acts (.silent r)
      ⟨by simpa using hf,by simpa using hs⟩ (by simp)
  rename_i hs
  rcases hr with ⟨-,hr⟩ | ⟨x,-,hr⟩
  · rw [hr]
    obtain ⟨outputs,s₂,⟨hlen,h⟩ | ⟨b,hb,h⟩⟩ := answerAll_course c r.response.calls
      ⟨p.past,p.transcript ++ [spoken r],p.usage.accumulate r.response.usage,p.iterations+1⟩ s₁
      (acts ++ heardActs a tools p r ++ [.remembered (spoken r) (.ok ())])
    · have hg : Round.Complete ⟨r,outputs⟩ := ⟨by simpa using hf,by simpa using hs,hlen⟩
      obtain ⟨o,s₃,hwithin,ho⟩ := hn (Round.after p ⟨r,outputs⟩) s₂
        (acts ++ Round.acts a tools p ⟨r,outputs⟩)
      -- The turn is one more round in front of the course that follows it.
      refine ⟨⟨⟨r,outputs⟩ :: o.rounds,o.ending,o.finishedAt,?_,o.possible⟩,s₃,⟨?_,?_⟩,?_⟩
      · simpa using ⟨hg,o.complete⟩
      · exact Nat.succ_le_succ hwithin.bound
      · simpa using hwithin.exhausted
      · dsimp only
        rw [show (spoken r).toolCalls = r.response.calls from rfl,h]
        simpa [Course.acts,Course.result,actsFrom,Round.acts,Round.after,Round.messages,
          Round.results] using ho
    · dsimp only
      rw [show (spoken r).toolCalls = r.response.calls from rfl,h]
      simpa [Ending.acts,fail,Round.acts,Round.messages,Round.results] using
        close s₂ acts (.broken ⟨r,outputs⟩ b) ⟨by simpa using hf,hb⟩ (by simp)
  · rw [hr]
    simpa [Ending.acts,fail] using close s₁ acts (.unspoken r x) (.inr (by simpa using hs))
      (by simp)

theorem turns_course (c : Collaborators σ) (a : Profile) (tools : Option String) (left : Nat)
    (p : Progress) (s : σ) (acts : List Act) :
    ∃ (o : Course) (t : σ), o.Within left ∧ turns c.observed a tools left p (s, acts) =
      (o.result a p, t, acts ++ o.acts a tools p) := by
  induction left generalizing p s acts with
  | zero =>
    simpa [turns,exhausted,Ending.acts] using
      ending_course c a tools 0 p (c.count a.maxIterations s) acts .exhausted trivial (by simp)
  | succ left ih =>
    unfold turns
    split
    · simpa [Ending.acts] using
        ending_course c a tools (left + 1) p s acts .aborted trivial (by simp)
    dsimp only [observed_count,observed_clock]
    let askedAt := c.clock (c.count (p.iterations+1) s)
    cases hc : c.chat (request a askedAt tools p) (c.count (p.iterations+1) s) with
    | mk o s₁ =>
      have hc : c.observed.chat (request a askedAt tools { p with iterations := p.iterations+1 })
          (c.count (p.iterations+1) s, acts ++ [.counted (p.iterations+1)]) =
          (o, s₁, acts ++ [.counted (p.iterations+1)] ++ [.asked (request a askedAt tools p) o]) :=
        observed_chat hc
      rw [hc]
      cases o with
      | error e =>
        simpa [Ending.acts,fail] using ending_course c a tools (left + 1) p s₁ acts
          (.unreached e askedAt) trivial (by simp)
      | ok r =>
        dsimp only [observed_publish,observed_clock]
        let told := c.publish (.llmResponded a.name (p.iterations+1) r.finishReason r.usage.total
          (c.clock s₁)) s₁
        simpa [heardActs,told,askedAt] using settle_course c a tools left _ ih
          ⟨r,askedAt,c.clock s₁,c.clock told⟩ p told acts rfl

def opening (a : Profile) (now : Instant) : List Act :=
  [.counted 0, .published (.runStarted a.name a.sessionId now)]

def unheard (e : Error) : RunResult := ⟨.error, none, 0, .zero, some e.code, some e.message, []⟩

def heard (past : List Message) (now : Instant) (input : String) : Progress :=
  ⟨past, [.user input now], .zero, 0⟩

theorem run_ok_iff {c : Collaborators σ} {a : Profile} {input : String} {s : σ} :
    (∃ result, (run c a input s).1 = .ok result) ↔
      Text.blank input = false ∧ c.isShutDown s = false := by
  unfold run
  cases hb : Text.blank input with
  | true => simp
  | false =>
    cases hs : c.isShutDown s with
    | true => simp
    | false => simp

/-- Every run that is begun either stops at its input or takes a course within its bound. -/
theorem run_course_within (c : Collaborators σ) (a : Profile) (input : String) (s : σ)
    {result : RunResult} (h : (run c a input s).1 = .ok result) :
    let past := c.history (opened c a s)
    let now := c.clock (opened c a s)
    (∃ (x : Refusal) (s₁ : σ) (finishedAt : Instant),
      record c (.user input now) (start past) (opened c a s) = (.error x.error, s₁) ∧
      result = unheard x.error ∧ trace c a input s = opening a (c.clock (c.count 0 s)) ++
        (x.acts (.user input now) ++ [.published (finished a finishedAt result)])) ∨
    ∃ (o : Course) (s₁ : σ),
      record c (.user input now) (start past) (opened c a s) = (.ok (heard past now input), s₁) ∧
      o.Within a.maxIterations.toNat ∧ result = o.result a (heard past now input) ∧
      trace c a input s = opening a (c.clock (c.count 0 s)) ++
        .remembered (.user input now) (.ok ()) ::
          o.acts a (c.schema s₁) (heard past now input) := by
  intro past now
  obtain ⟨hb,hs⟩ := run_ok_iff.mp ⟨result,h⟩
  have hs : c.observed.isShutDown (s, []) = false := hs
  have hobs := run_observed c a input s
  rw [h] at hobs
  simp only [run,hb,hs,Bool.false_eq_true,if_false] at hobs
  have hopen : opened c.observed a (s, []) =
      (opened c a s, opening a (c.clock (c.count 0 s))) := rfl
  have hpast : c.observed.history (opened c.observed a (s, [])) = past := rfl
  rw [hpast,hopen,observed_clock] at hobs
  obtain ⟨s₁,⟨hr,hro⟩ | ⟨x,hr,hro⟩⟩ := record_observed c (.user input now) (start past)
    (opened c a s) (opening a (c.clock (c.count 0 s)))
  · obtain ⟨o,s₂,hwithin,ho⟩ := turns_course c a (c.schema s₁) a.maxIterations.toNat
      (heard past now input) s₁
      (opening a (c.clock (c.count 0 s)) ++ [.remembered (.user input now) (.ok ())])
    have hheard : { start past with transcript := (start past).transcript ++ [.user input now] } =
      heard past now input := rfl
    rw [hheard] at hr hro
    rw [hro] at hobs
    dsimp only at hobs
    rw [observed_schema,ho] at hobs
    simp at hobs
    obtain ⟨rfl,-,htrace⟩ := hobs
    exact .inr ⟨o,s₁,hr,hwithin,rfl,htrace.symm⟩
  · rw [hro] at hobs
    simp [fail,finish,start] at hobs
    obtain ⟨rfl,-,htrace⟩ := hobs
    exact .inl ⟨x,s₁,c.clock s₁,hr,rfl,htrace.symm⟩

theorem run_course (c : Collaborators σ) (a : Profile) (input : String) (s : σ)
    {result : RunResult} (h : (run c a input s).1 = .ok result) :
    let past := c.history (opened c a s)
    let now := c.clock (opened c a s)
    (∃ (x : Refusal) (s₁ : σ) (finishedAt : Instant),
      record c (.user input now) (start past) (opened c a s) = (.error x.error, s₁) ∧
      result = unheard x.error ∧ trace c a input s = opening a (c.clock (c.count 0 s)) ++
        (x.acts (.user input now) ++ [.published (finished a finishedAt result)])) ∨
    ∃ (o : Course) (s₁ : σ),
      record c (.user input now) (start past) (opened c a s) = (.ok (heard past now input), s₁) ∧
      result = o.result a (heard past now input) ∧
      trace c a input s = opening a (c.clock (c.count 0 s)) ++
        .remembered (.user input now) (.ok ()) ::
          o.acts a (c.schema s₁) (heard past now input) := by
  rcases run_course_within c a input s h with hl | ⟨o,s₁,hm,-,hres,htrace⟩
  · exact .inl hl
  · exact .inr ⟨o,s₁,hm,hres,htrace⟩

end Observed

end ReasonAct.Run
