import ReasonAct.Proofs.Run.Attached
import ReasonAct.Proofs.Run.Requests
import ReasonAct.Proofs.World.Solo
/-!
An agent with a memory that nothing but its runs touches. The memory, the transcript of a run and
the requests hold one conversation: what the memory took is the transcript, and each request shows
what the memory held at the start with the transcript so far behind it, whatever the memory lets go
of meanwhile. Only a history that cannot grow comes to lack what the memory has taken.
-/
set_option autoImplicit false

namespace ReasonAct

variable {σ : Type}

namespace Run

/-- One conversation in the memory, which was `before` and is `after` the run, and in the
transcript. -/
structure Aligned (before after : Memory) (acts : List Act) (result : RunResult) : Prop where
  taken : Act.taken acts = result.messages
  appended : before.appendAll result.messages = .ok after
  whole : before.kind.Unbounded → after.messages = before.messages ++ result.messages
  /-- Nothing is handed to the memory after a refusal, which ends the run. -/
  refused : ∃ r : Option (Message × Error), Act.refused acts = r.toList ∧
    Act.offered acts = result.messages ++ (r.map Prod.fst).toList ∧
    ∀ m e, r = some (m, e) → result.status = .error ∧ result.error = some e.code

/-- The conversation as the model is shown it. -/
structure Presented (a : Profile) (tools : Option String) (past : List Message) (acts : List Act) :
    Prop where
  shown : Grounded a tools past acts
  grows : (Act.requests acts).Pairwise (Grows a)
  instructions : ∀ m ∈ Act.offered acts, m.role ≠ .system

theorem Round.not_system (g : Round) : ∀ m ∈ g.messages, m.role ≠ .system := by
  intro m hm
  rcases List.mem_cons.mp hm with rfl | hm
  · simp [spoken]
  · obtain ⟨x,-,rfl⟩ := List.mem_map.mp hm
    simp [told]

theorem Ending.not_system (e : Ending) :
    ∀ m ∈ e.messages ++ (e.refused.map Prod.fst).toList, m.role ≠ .system := by
  cases e with
  | broken g b =>
    have hg := g.not_system
    cases b with
    | unanswered call e => simpa [Ending.refused] using hg
    | untold call output x =>
      intro m hm
      simp only [Ending.messages,Ending.refused,Option.map_some,Option.toList_some,
        List.mem_append,List.mem_singleton] at hm
      rcases hm with hm | rfl
      · exact hg m hm
      · simp [told]
  | _ => simp [Ending.refused,spoken]

theorem course_not_system (a : Profile) (tools : Option String) (o : Course) (p : Progress) :
    ∀ m ∈ Act.offered (o.acts a tools p), m.role ≠ .system := by
  intro m hm
  rw [offered_course] at hm
  rcases List.mem_append.mp hm with hm | hm
  · obtain ⟨g,-,hm⟩ := List.mem_flatMap.mp hm
    exact g.not_system m hm
  · exact o.ending.not_system m hm

section Course

variable {a : Profile} {startedAt now : Instant} {input : String} {tools : Option String}
  {acts : List Act}

theorem course_presented {past : List Message} (o : Course)
    (hacts : acts = opening a startedAt ++ .remembered (.user input now) (.ok ()) ::
      o.acts a tools (heard past now input)) : Presented a tools past acts := by
  subst hacts
  refine { shown := ?shown, grows := ?grows, instructions := ?instructions }
  case shown =>
    have h := grounded_course a tools o.ending o.finishedAt o.rounds (heard past now input)
    rw [grounded_append,grounded_cons]
    refine ⟨grounded_of_requests a tools rfl,by simp,?_⟩
    simpa [opening,Run.shown,heard,Course.acts] using h
  case grows =>
    simpa [opening,Course.acts] using
      requests_grow a tools o.ending o.finishedAt o.rounds (heard past now input)
  case instructions =>
    have h := course_not_system a tools o (heard past now input)
    simpa [opening,Message.user,Message.plain] using h

theorem course_aligned {before after : Memory} (o : Course)
    (hacts : acts = opening a startedAt ++ .remembered (.user input now) (.ok ()) ::
      o.acts a tools (heard before.messages now input))
    (happ : before.appendAll (Act.taken acts) = .ok after) (hroom : Act.overflows acts = []) :
    Aligned before after acts (o.result a (heard before.messages now input)) := by
  have hmessages : (o.result a (heard before.messages now input)).messages =
      .user input now :: (o.rounds.flatMap Round.messages ++ o.ending.messages) := by
    simp [Course.result,Ending.result,transcript_rounds,heard]
  have hleft : o.ending.left = [] := by
    rw [hacts] at hroom
    simpa [opening,overflows_course] using hroom
  have htaken : Act.taken acts = (o.result a (heard before.messages now input)).messages := by
    rw [hacts,hmessages]
    simp [opening,taken_course,hleft]
  rw [htaken] at happ
  refine
    { taken := htaken
      appended := happ
      whole := fun hb => Memory.appendAll_unbounded hb happ
      refused := ⟨o.ending.refused,?_,?_,?_⟩ }
  · rw [hacts]
    simp [opening,refused_course]
  · rw [hacts,hmessages]
    simp [opening,offered_course]
  · intro m e h
    obtain ⟨hstatus,herror⟩ := Ending.refused_error h
    exact ⟨hstatus,congrArg (Option.map Error.code) herror⟩

variable {x : Refusal} {finishedAt : Instant}

theorem unheard_presented {past : List Message}
    (hacts : acts = opening a startedAt ++ (x.acts (.user input now) ++
      [.published (finished a finishedAt (unheard x.error))])) : Presented a tools past acts := by
  subst hacts
  have hrequests : Act.requests (opening a startedAt ++ (x.acts (.user input now) ++
      [.published (finished a finishedAt (unheard x.error))])) = [] := by simp [opening]
  exact
    { shown := grounded_of_requests a tools hrequests
      grows := by simp [hrequests]
      instructions := by simp [opening,Message.user,Message.plain] }

theorem unheard_aligned {before after : Memory}
    (hacts : acts = opening a startedAt ++ (x.acts (.user input now) ++
      [.published (finished a finishedAt (unheard x.error))]))
    (happ : before.appendAll (Act.taken acts) = .ok after) (hroom : Act.overflows acts = []) :
    Aligned before after acts (unheard x.error) := by
  subst hacts
  have hleft : x.left (.user input now) = [] := by simpa [opening] using hroom
  have htaken : Act.taken (opening a startedAt ++ (x.acts (.user input now) ++
      [.published (finished a finishedAt (unheard x.error))])) = (unheard x.error).messages := by
    simp [opening,unheard,hleft]
  rw [htaken] at happ
  refine
    { taken := htaken
      appended := happ
      whole := fun hb => Memory.appendAll_unbounded hb happ
      refused := ⟨some (.user input now, x.error),by simp [opening],by simp [opening,unheard],?_⟩ }
  rintro m e ⟨⟩
  exact ⟨rfl,rfl⟩

end Course

theorem run_aligned (c : Collaborators σ) (memory : σ → Memory) (Quiet : σ → Prop)
    (h : c.Attached memory Quiet) (a : Profile) (input : String) (s : σ) (hs : Quiet s)
    (result : RunResult) (hr : (run c a input s).1 = .ok result) :
    Presented a (c.schema s) (memory s).messages (trace c a input s) ∧
      (Act.overflows (trace c a input s) = [] →
        Aligned (memory s) (memory (run c a input s).2) (trace c a input s) result) := by
  have happ := (taken_replays h a input hs).2
  obtain ⟨startedAt,now,finishedAt,⟨x,rfl,htrace⟩ | ⟨o,rfl,htrace⟩⟩ := attached_course h hs hr
  · exact ⟨unheard_presented htrace,unheard_aligned htrace happ⟩
  · exact ⟨course_presented o htrace,course_aligned o htrace happ⟩

open World

theorem run_aligned_evicted :
    let outcomes := [.ok (.toolUse [⟨"a", "echo", "1"⟩]), .ok (.stop "done")]
    let w := solo (.kept 2) outcomes
    let c := soloReach (.kept 2) outcomes
    let acts := trace c soloProfile "hi" w
    ∃ result, (run c soloProfile "hi" w).1 = .ok result ∧ Act.overflows acts = [] ∧
      Presented soloProfile (c.schema w) (memoryAt 0 w).messages acts ∧
      Aligned (memoryAt 0 w) (memoryAt 0 (run c soloProfile "hi" w).2) acts result := by
  intro outcomes w c acts
  obtain ⟨result,hr⟩ := run_ok_iff.mpr ⟨show Text.blank "hi" = false by decide,
    show c.isShutDown w = false from rfl⟩
  have hroom : Act.overflows acts = [] := by decide +kernel
  obtain ⟨hpresented,haligned⟩ := run_aligned c (memoryAt 0) (World.Spares 0)
    (soloReach_attached _ _) soloProfile "hi" w (solo_spares _ _) result hr
  exact ⟨result,hr,hroom,hpresented,haligned hroom⟩

section Drift

private def outcomes : List (Except ProviderError ChatResponse) :=
  [.ok (.toolUse [⟨"a", "echo", "1"⟩]), .ok (.stop "done")]

private def nextDay : Instant := (Instant.of? ⟨1970, 1, 2⟩ Instant.epoch.time).getD .epoch

/-- What the soloist reaches when a day goes by between two answers of its script. -/
private def overnight : Collaborators World :=
  { soloReach (.kept 0) outcomes with
    clock := fun w => if w.scripts.all (·.requests.isEmpty) then .epoch else nextDay }

private theorem overnight_attached : overnight.Attached (memoryAt 0) (World.Spares 0) :=
  { soloReach_attached (.kept 0) outcomes with }

private def cramped : World :=
  { solo (.kept 0) outcomes with room := fun store n => store ≠ .history || n = 0 }

/-- The instructions are stamped anew for the second request, which so does not begin with the first
one; and the memory keeps a message for which the history has no room. -/
theorem conversation_drifts :
    (overnight.Attached (memoryAt 0) (World.Spares 0) ∧ (solo (.kept 0) outcomes).Spares 0 ∧
      ∃ x y, (Act.requests (trace overnight soloProfile "hi" (solo (.kept 0) outcomes))).map
        ChatRequest.messages = [x, y] ∧ ¬ x <+: y) ∧
    ∃ result, (World.run 0 "hi" cramped).1 = .ok result ∧
      (memoryAt 0 (World.run 0 "hi" cramped).2).messages ≠
        (memoryAt 0 cramped).messages ++ result.messages := by
  have hrequests : (Act.requests (trace overnight soloProfile "hi"
      (solo (.kept 0) outcomes))).map ChatRequest.messages =
      [[.system "Be terse." .epoch, .user "hi" .epoch],
        [.system "Be terse." nextDay, .user "hi" .epoch,
          spoken ⟨.toolUse [⟨"a", "echo", "1"⟩], .epoch, nextDay, nextDay⟩,
          told (⟨"a", "echo", "1"⟩, ⟨notFound "echo", nextDay, nextDay⟩)]] := by decide +kernel
  have hresult : (World.run 0 "hi" cramped).1.toOption.map RunResult.messages =
      some [.user "hi" .epoch] := by decide +kernel
  have hkept : (memoryAt 0 (World.run 0 "hi" cramped).2).messages =
      [.user "hi" .epoch, spoken ⟨.toolUse [⟨"a", "echo", "1"⟩], .epoch, .epoch, .epoch⟩] := by
    decide +kernel
  refine ⟨⟨overnight_attached,solo_spares _ _,_,_,hrequests,by decide⟩,?_⟩
  cases hr : (World.run 0 "hi" cramped).1 with
  | error e => simp [hr,Except.toOption] at hresult
  | ok result =>
    have hmessages : result.messages = [.user "hi" .epoch] := by
      simpa [hr,Except.toOption] using hresult
    refine ⟨result,rfl,?_⟩
    rw [hkept,hmessages]
    decide

end Drift

end Run
end ReasonAct
