import ReasonAct.Proofs.Run.Simulation
set_option autoImplicit false

namespace ReasonAct

/-- One exchange of a run with its surroundings. -/
inductive Act where
  | counted (n : UInt32)
  | published (e : Event)
  | remembered (m : Message) (outcome : Except Error Unit)
  /-- The history could not grow by a message. -/
  | overflowed (m : Message)
  | asked (request : ChatRequest) (outcome : Except ProviderError ChatResponse)
  | answered (call : ToolCall) (outcome : Except Error String)

namespace Act

variable {α : Type}

def view (f : Act → Option α) (acts : List Act) : List α := acts.filterMap f

@[simp] theorem view_nil (f : Act → Option α) : view f [] = [] := rfl

@[simp] theorem view_cons (f : Act → Option α) (x : Act) (acts : List Act) :
    view f (x :: acts) = (f x).toList ++ view f acts := by
  cases h : f x <;> simp [view,h]

@[simp] theorem view_append (f : Act → Option α) (xs ys : List Act) :
    view f (xs ++ ys) = view f xs ++ view f ys := by simp [view]

@[simp] theorem view_flatMap {β : Type} (f : Act → Option α) (xs : List β) (g : β → List Act) :
    view f (xs.flatMap g) = xs.flatMap fun x => view f (g x) := by
  induction xs with
  | nil => rfl
  | cons x xs ih => simp [ih]

@[simp] def response? : Act → Option ChatResponse
  | .asked _ (.ok r) => some r
  | _ => none

@[simp] def output? : Act → Option (ToolCall × String)
  | .answered call (.ok output) => some (call, output)
  | _ => none

@[simp] def offered? : Act → Option Message
  | .remembered m _ => some m
  | _ => none

@[simp] def taken? : Act → Option Message
  | .remembered m (.ok _) => some m
  | _ => none

@[simp] def refused? : Act → Option (Message × Error)
  | .remembered m (.error e) => some (m, e)
  | .overflowed m => some (m, Run.historyFull)
  | _ => none

@[simp] def overflow? : Act → Option Message
  | .overflowed m => some m
  | _ => none

@[simp] def request? : Act → Option ChatRequest
  | .asked request _ => some request
  | _ => none

@[simp] def outcome? : Act → Option (Except ProviderError ChatResponse)
  | .asked _ outcome => some outcome
  | _ => none

abbrev responses : List Act → List ChatResponse := view response?
abbrev outputs : List Act → List (ToolCall × String) := view output?
abbrev offered : List Act → List Message := view offered?
abbrev taken : List Act → List Message := view taken?
abbrev refused : List Act → List (Message × Error) := view refused?
abbrev overflows : List Act → List Message := view overflow?
abbrev requests : List Act → List ChatRequest := view request?
abbrev outcomes : List Act → List (Except ProviderError ChatResponse) := view outcome?

end Act

variable {σ : Type}

/-- The same surroundings, which put every exchange on record. -/
def Collaborators.observed (c : Collaborators σ) : Collaborators (σ × List Act) where
  chat request s :=
    let (outcome, t) := c.chat request s.1
    (outcome, t, s.2 ++ [.asked request outcome])
  answer call s :=
    let (outcome, t) := c.answer call s.1
    (outcome, t, s.2 ++ [.answered call outcome])
  remember m s :=
    let (outcome, t) := c.remember m s.1
    (outcome, t, s.2 ++ [.remembered m outcome])
  reserve m n s :=
    let (room, t) := c.reserve m n s.1
    (room, t, if room then s.2 else s.2 ++ [.overflowed m])
  history s := c.history s.1
  schema s := c.schema s.1
  isShutDown s := c.isShutDown s.1
  clock s := c.clock s.1
  count n s := (c.count n s.1, s.2 ++ [.counted n])
  publish e s := (c.publish e s.1, s.2 ++ [.published e])

theorem Collaborators.observed_agrees (c : Collaborators σ) :
    c.observed.Agrees c (fun s t => s.1 = t) where
  chat := by rintro s _ rfl request; exact ⟨rfl,rfl⟩
  answer := by rintro s _ rfl call; exact ⟨rfl,rfl⟩
  remember := by rintro s _ rfl m; exact ⟨rfl,rfl⟩
  reserve := by rintro s _ rfl m n; exact ⟨rfl,rfl⟩
  history := by rintro s _ rfl; rfl
  schema := by rintro s _ rfl; rfl
  isShutDown := by rintro s _ rfl; rfl
  clock := by rintro s _ rfl; rfl
  count := by rintro s _ rfl n; rfl
  publish := by rintro s _ rfl e; rfl

namespace Run

def trace (c : Collaborators σ) (a : Profile) (input : String) (s : σ) : List Act :=
  (run c.observed a input (s, [])).2.2

theorem run_observed (c : Collaborators σ) (a : Profile) (input : String) (s : σ) :
    run c.observed a input (s, []) =
      ((run c a input s).1, (run c a input s).2, trace c a input s) := by
  obtain ⟨o,s₁,t,hc,hd,rfl⟩ := (run_alike c.observed_agrees a input
    (show ((s, []) : σ × List Act).1 = s from rfl)).split
  simp [trace,hc,hd]

theorem run_of_shutDown {c : Collaborators σ} {s : σ} (h : c.isShutDown s = true) (a : Profile)
    (input : String) :
    run c a input s = (.error (if Text.blank input then
        .invalidArgument "input must not be empty" else sessionClosed a.sessionId), s) ∧
      trace c a input s = [] := by
  have hobserved : c.observed.isShutDown (s, []) = true := h
  cases hb : Text.blank input with
  | true => exact ⟨by simp [run,hb],by simp [trace,run,hb]⟩
  | false => exact ⟨by simp [run,hb,h],by simp [trace,run,hb,hobserved]⟩

end Run
end ReasonAct
