import ReasonAct.Proofs.Run.Course
set_option autoImplicit false

namespace ReasonAct.Run

def shown (p : Progress) : List Message := p.past ++ p.transcript

theorem request_eq (a : Profile) (now : Instant) (tools : Option String) (p : Progress) :
    request a now tools p = ⟨leading a now ++ shown p, tools, a.timeoutMs⟩ := rfl

theorem shown_after (p : Progress) (g : Round) : shown (g.after p) = shown p ++ g.messages := by
  simp [shown,Round.after]

section Grounded

variable (a : Profile) (tools : Option String)

/-- Every request shows the instructions, `base`, and all that the memory took before. -/
def Grounded (base : List Message) (acts : List Act) : Prop :=
  ∀ before request outcome after, acts = before ++ .asked request outcome :: after →
    ∃ now, request = ⟨leading a now ++ (base ++ Act.taken before), tools, a.timeoutMs⟩

@[simp] theorem grounded_nil (base : List Message) : Grounded a tools base [] := by
  intro before request outcome after h
  simp at h

theorem grounded_cons (base : List Message) (x : Act) (acts : List Act) :
    Grounded a tools base (x :: acts) ↔
      (∀ request outcome, x = .asked request outcome →
        ∃ now, request = ⟨leading a now ++ base, tools, a.timeoutMs⟩) ∧
        Grounded a tools (base ++ (Act.taken? x).toList) acts := by
  constructor
  · intro h
    refine ⟨?_,?_⟩
    · rintro request outcome rfl
      simpa using h [] request outcome acts rfl
    · rintro before request outcome after rfl
      simpa using h (x :: before) request outcome after rfl
  · rintro ⟨hx,hacts⟩ before request outcome after h
    cases before with
    | nil =>
      obtain ⟨rfl,-⟩ := List.cons.inj h
      simpa using hx request outcome rfl
    | cons y before =>
      obtain ⟨rfl,rfl⟩ := List.cons.inj h
      simpa using hacts before request outcome after rfl

theorem grounded_append (base : List Message) (xs ys : List Act) :
    Grounded a tools base (xs ++ ys) ↔
      Grounded a tools base xs ∧ Grounded a tools (base ++ Act.taken xs) ys := by
  induction xs generalizing base with
  | nil => simp
  | cons x xs ih => simp [grounded_cons,ih,and_assoc]

theorem Grounded.of_mem {base : List Message} {acts : List Act} (h : Grounded a tools base acts)
    {r : ChatRequest} (hr : r ∈ Act.requests acts) :
    ∃ now before, r = ⟨leading a now ++ (base ++ Act.taken before), tools, a.timeoutMs⟩ := by
  obtain ⟨x,hx,hxr⟩ := List.mem_filterMap.mp hr
  obtain ⟨before,after,rfl⟩ := List.append_of_mem hx
  cases x with
  | asked request outcome =>
    obtain rfl := Option.some.inj hxr
    obtain ⟨now,hr⟩ := h before request outcome after rfl
    exact ⟨now,before,hr⟩
  | _ => simp at hxr

theorem grounded_of_requests {base : List Message} {acts : List Act}
    (h : Act.requests acts = []) : Grounded a tools base acts := by
  rintro before request outcome after rfl
  simp at h

end Grounded

/-- Behind the instructions, which are stamped anew, the second request shows all that the first
one did, and more. -/
def Grows (a : Profile) (x y : ChatRequest) : Prop :=
  ∃ now later ms rest, x.messages = leading a now ++ ms ∧
    y.messages = leading a later ++ (ms ++ rest) ∧ rest ≠ []

section Acts

variable (a : Profile) (tools : Option String)

theorem requests_told (xs : List (ToolCall × Output)) :
    Act.requests (xs.flatMap toldActs) = [] := by simp [toldActs]

theorem requests_round (p : Progress) (g : Round) :
    Act.requests (g.acts a tools p) = [request a g.askedAt tools p] := by
  simp [Round.acts,heardActs,toldActs]

theorem grounded_asked (p : Progress) (now : Instant) (o : Except ProviderError ChatResponse) :
    Grounded a tools (shown p) [.counted (p.iterations + 1), .asked (request a now tools p) o] := by
  simp only [grounded_cons,request_eq]
  exact ⟨by simp,by rintro _ _ ⟨⟩; exact ⟨now,by simp⟩,grounded_nil a tools _⟩

theorem grounded_heard (p : Progress) (r : Reply) :
    Grounded a tools (shown p) (heardActs a tools p r) := by
  rw [show heardActs a tools p r = [.counted (p.iterations + 1),
    .asked (request a r.askedAt tools p) (.ok r.response)] ++ _ from rfl,grounded_append]
  exact ⟨grounded_asked a tools p r.askedAt _,grounded_of_requests a tools rfl⟩

theorem taken_round (p : Progress) (g : Round) : Act.taken (g.acts a tools p) = g.messages := by
  simp [Round.acts,heardActs,toldActs,Round.messages,List.map_eq_flatMap]

theorem grounded_round (p : Progress) (g : Round) :
    Grounded a tools (shown p) (g.acts a tools p) := by
  unfold Round.acts
  rw [grounded_append,grounded_cons]
  exact ⟨grounded_heard a tools p g.toReply,by simp,
    grounded_of_requests a tools (requests_told g.results)⟩

theorem requests_break (b : Break) : Act.requests b.acts = [] := by
  cases b <;> simp [Break.acts]

theorem grounded_ending (p : Progress) (e : Ending) :
    Grounded a tools (shown p) (e.acts a tools p) := by
  cases e with
  | broken g b =>
    rw [Ending.acts,grounded_append]
    exact ⟨grounded_round a tools p g,grounded_of_requests a tools (requests_break b)⟩
  | unreached e askedAt => exact grounded_asked a tools p askedAt _
  | unspoken r x =>
    rw [Ending.acts,grounded_append]
    exact ⟨grounded_heard a tools p r,grounded_of_requests a tools (x.requests_acts _)⟩
  | _ => simp [Ending.acts,grounded_append,grounded_cons,grounded_heard]

theorem grounded_course (e : Ending) (now : Instant) (gs : List Round) (p : Progress) :
    Grounded a tools (shown p) (actsFrom a tools e now gs p) := by
  induction gs generalizing p with
  | nil => simp [actsFrom,grounded_append,grounded_cons,grounded_ending]
  | cons g gs ih =>
    rw [actsFrom,grounded_append,taken_round,← shown_after]
    exact ⟨grounded_round a tools p g,ih (g.after p)⟩

theorem requests_ending (p : Progress) (e : Ending) :
    Act.requests (e.acts a tools p) = [] ∨
      ∃ now, Act.requests (e.acts a tools p) = [request a now tools p] := by
  cases e with
  | exhausted => exact .inl rfl
  | aborted => exact .inl rfl
  | unreached e askedAt => exact .inr ⟨askedAt,rfl⟩
  | broken g b =>
    exact .inr ⟨g.askedAt,by simp [Ending.acts,requests_round,requests_break]⟩
  | silent r => exact .inr ⟨r.askedAt,rfl⟩
  | final r => exact .inr ⟨r.askedAt,rfl⟩
  | unspoken r x => exact .inr ⟨r.askedAt,by simp [Ending.acts,heardActs]⟩

theorem requests_grow (e : Ending) (now : Instant) (gs : List Round) (p : Progress) :
    (Act.requests (actsFrom a tools e now gs p)).Pairwise (Grows a) := by
  induction gs generalizing p with
  | nil =>
    rcases requests_ending a tools p e with h | ⟨t,h⟩ <;> simp [actsFrom,h]
  | cons g gs ih =>
    have hsplit : Act.requests (actsFrom a tools e now (g :: gs) p) =
        request a g.askedAt tools p :: Act.requests (actsFrom a tools e now gs (g.after p)) := by
      simp [actsFrom,requests_round]
    rw [hsplit,List.pairwise_cons]
    refine ⟨?_,ih (g.after p)⟩
    intro r hr
    obtain ⟨later,before,rfl⟩ := (grounded_course a tools e now gs (g.after p)).of_mem _ _ hr
    refine ⟨g.askedAt,later,shown p,g.messages ++ Act.taken before,?_,?_,by simp [Round.messages]⟩
    · rw [request_eq]
    · simp [shown_after]

/-- Between what is shown at first and a request there are full rounds and nothing else. -/
theorem request_of_course {e : Ending} {now : Instant} {gs : List Round} {p : Progress}
    {r : ChatRequest} (hr : r ∈ Act.requests (actsFrom a tools e now gs p)) :
    ∃ done askedAt, done <+: gs ∧
      r.messages = leading a askedAt ++ (shown p ++ done.flatMap Round.messages) := by
  induction gs generalizing p with
  | nil =>
    rcases requests_ending a tools p e with h | ⟨askedAt,h⟩
    · simp [actsFrom,h] at hr
    · have hr : r = request a askedAt tools p := by simpa [actsFrom,h] using hr
      exact ⟨[],askedAt,List.nil_prefix,by simp [hr,request_eq]⟩
  | cons g gs ih =>
    have hr : r = request a g.askedAt tools p ∨
        r ∈ Act.requests (actsFrom a tools e now gs (g.after p)) := by
      simpa [actsFrom,requests_round] using hr
    rcases hr with rfl | hr
    · exact ⟨[],g.askedAt,List.nil_prefix,by simp [request_eq]⟩
    · obtain ⟨done,askedAt,hdone,hmessages⟩ := ih hr
      exact ⟨g :: done,askedAt,List.cons_prefix_cons.mpr ⟨rfl,hdone⟩,
        by simp [hmessages,shown_after]⟩

/-- What was not recorded at the end, with the error. -/
def Ending.refused : Ending → Option (Message × Error)
  | .unspoken r x => some (spoken r, x.error)
  | .broken _ (.untold call output x) => some (told (call, output), x.error)
  | _ => none

def Ending.left : Ending → List Message
  | .unspoken r x => x.left (spoken r)
  | .broken _ (.untold call output x) => x.left (told (call, output))
  | _ => []

theorem Ending.refused_error {e : Ending} {m : Message} {x : Error}
    (h : e.refused = some (m, x)) : e.status = .error ∧ e.error = some x := by
  cases e with
  | unspoken r x => simp_all [Ending.refused]
  | broken g b => cases b <;> simp_all [Ending.refused,Break.error]
  | _ => simp [Ending.refused] at h

theorem taken_ending (p : Progress) (e : Ending) :
    Act.taken (e.acts a tools p) = e.messages ++ e.left := by
  cases e with
  | broken g b =>
    have h := taken_round a tools p g
    cases b <;> simp [Ending.acts,Ending.left,Break.acts,h]
  | _ => simp [Ending.acts,Ending.left,heardActs]

theorem offered_round (p : Progress) (g : Round) : Act.offered (g.acts a tools p) = g.messages := by
  simp [Round.acts,heardActs,toldActs,Round.messages,List.map_eq_flatMap]

theorem offered_ending (p : Progress) (e : Ending) :
    Act.offered (e.acts a tools p) = e.messages ++ (e.refused.map Prod.fst).toList := by
  cases e with
  | broken g b =>
    have h := offered_round a tools p g
    cases b <;> simp [Ending.acts,Ending.refused,Break.acts,h]
  | _ => simp [Ending.acts,Ending.refused,heardActs]

theorem refused_round (p : Progress) (g : Round) : Act.refused (g.acts a tools p) = [] := by
  simp [Round.acts,heardActs,toldActs]

theorem refused_ending (p : Progress) (e : Ending) :
    Act.refused (e.acts a tools p) = e.refused.toList := by
  cases e with
  | broken g b =>
    have h := refused_round a tools p g
    cases b <;> simp [Ending.acts,Ending.refused,Break.acts,h]
  | _ => simp [Ending.acts,Ending.refused,heardActs]

theorem overflows_round (p : Progress) (g : Round) : Act.overflows (g.acts a tools p) = [] := by
  simp [Round.acts,heardActs,toldActs]

theorem overflows_ending (p : Progress) (e : Ending) :
    Act.overflows (e.acts a tools p) = e.left := by
  cases e with
  | broken g b =>
    have h := overflows_round a tools p g
    cases b <;> simp [Ending.acts,Ending.left,Break.acts,h]
  | _ => simp [Ending.acts,Ending.left,heardActs]

theorem taken_course (o : Course) (p : Progress) : Act.taken (o.acts a tools p) =
    o.rounds.flatMap Round.messages ++ (o.ending.messages ++ o.ending.left) :=
  view_course a tools _ (fun _ => rfl) (taken_round a tools) (taken_ending a tools) o p

theorem offered_course (o : Course) (p : Progress) : Act.offered (o.acts a tools p) =
    o.rounds.flatMap Round.messages ++
      (o.ending.messages ++ (o.ending.refused.map Prod.fst).toList) :=
  view_course a tools _ (fun _ => rfl) (offered_round a tools) (offered_ending a tools) o p

theorem refused_course (o : Course) (p : Progress) :
    Act.refused (o.acts a tools p) = o.ending.refused.toList := by
  have h := view_course a tools _ (fun _ => rfl) (refused_round a tools) (refused_ending a tools) o p
  rwa [List.flatMap_eq_nil_iff.mpr fun _ _ => rfl,List.nil_append] at h

theorem overflows_course (o : Course) (p : Progress) :
    Act.overflows (o.acts a tools p) = o.ending.left := by
  have h := view_course a tools _ (fun _ => rfl) (overflows_round a tools)
    (overflows_ending a tools) o p
  rwa [List.flatMap_eq_nil_iff.mpr fun _ _ => rfl,List.nil_append] at h

end Acts

end ReasonAct.Run
