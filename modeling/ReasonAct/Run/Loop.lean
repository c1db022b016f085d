import ReasonAct.Event.Basic
import ReasonAct.Chat.Request
/-!
The loop of reasoning and acting. The model is asked; the tools it calls are run and their
results recorded; it is asked again, until it gives a final answer or the turns are used up. The
loop knows its surroundings only as `Collaborators`, and all that they do is one state. What is
said at a moment is stamped with it; how long a call took is not told.
-/
set_option autoImplicit false

namespace ReasonAct

structure Collaborators (σ : Type) where
  chat : ChatRequest → σ → Except ProviderError ChatResponse × σ
  answer : ToolCall → σ → Except Error String × σ
  /-- Adds to the memory, if there is one. -/
  remember : Message → σ → Except Error Unit × σ
  /-- Whether a history of so many messages can grow by this one. -/
  reserve : Message → Nat → σ → Bool × σ
  history : σ → List Message
  schema : σ → Option String
  isShutDown : σ → Bool
  clock : σ → Instant
  count : UInt32 → σ → σ
  publish : Event → σ → σ

structure Profile where
  name : String
  sessionId : String
  maxIterations : UInt32
  timeoutMs : Option UInt64
  instructions : Option String
  deriving DecidableEq, Repr

/-- What was remembered when the run began, and the run so far. -/
structure Progress where
  past : List Message
  transcript : List Message
  usage : Usage
  iterations : UInt32
  deriving DecidableEq

namespace Run

variable {σ : Type}

def start (past : List Message) : Progress := ⟨past, [], .zero, 0⟩

def sessionClosed (sessionId : String) : Error :=
  .invalidState ("session " ++ sessionId ++ " is closed")

def historyFull : Error := .outOfMemory "conversation history"

/-- The memory comes first: what it refuses does not enter the transcript. What it has taken is
missing there all the same when the history cannot grow. -/
def record (c : Collaborators σ) (m : Message) (p : Progress) (s : σ) :
    Except Error Progress × σ :=
  match c.remember m s with
  | (.error e, s) => (.error e, s)
  | (.ok _, s) =>
    match c.reserve m (p.past.length + p.transcript.length) s with
    | (false, s) => (.error historyFull, s)
    | (true, s) => (.ok { p with transcript := p.transcript ++ [m] }, s)

/-- The instructions, as a message of their own. -/
def leading (a : Profile) (now : Instant) : List Message :=
  match a.instructions with
  | some text => [.system text now]
  | none => []

/-- Instructions, which are stamped anew for every request, then the history. -/
def request (a : Profile) (now : Instant) (tools : Option String) (p : Progress) :
    ChatRequest where
  messages := leading a now ++ (p.past ++ p.transcript)
  tools := tools
  timeoutMs := a.timeoutMs

def finish (c : Collaborators σ) (a : Profile) (status : RunStatus) (response : Option String)
    (error : Option Error) (p : Progress) (s : σ) : RunResult × σ :=
  (⟨status, response, p.iterations, p.usage, error.map Error.code, error.map Error.message,
      p.transcript⟩,
    c.publish (.runFinished a.name status p.iterations p.usage.total (c.clock s)) s)

def fail (c : Collaborators σ) (a : Profile) (e : Error) (p : Progress) (s : σ) : RunResult × σ :=
  finish c a .error none (some e) p s

def notFound (name : String) : String := errorPayload ("Tool '" ++ name ++ "' not found")

/-- Runs the calls of one turn in order and records each result; stops at the first error. -/
def answerAll (c : Collaborators σ) :
    List ToolCall → Progress → σ → Option Error × Progress × σ
  | [], p, s => (none, p, s)
  | call :: calls, p, s =>
    match c.answer call s with
    | (.error e, s) => (some e, p, s)
    | (.ok output, s) =>
      let result := ToolResult.ofOutput call.id output
      let s := c.publish (.toolExecuted call.name result.isError 0 (c.clock s)) s
      match record c (.ofResult result (c.clock s)) p s with
      | (.error e, s) => (some e, p, s)
      | (.ok p, s) => answerAll c calls p s

/-- Whether a response ends the run: the model says so, or it gives text and calls no tool. -/
def isFinal (r : ChatResponse) : Bool := r.isStop || (!r.hasToolCalls && r.text.isSome)

def exhausted (c : Collaborators σ) (a : Profile) (p : Progress) (s : σ) : RunResult × σ :=
  finish c a .maxIterations (some maxIterationsResponse) none
    { p with iterations := a.maxIterations } (c.count a.maxIterations s)

/-- What a response leads to. When it calls tools and does not end the run, these are run, and
`next` goes on from there. -/
def settle (c : Collaborators σ) (a : Profile) (next : Progress → σ → RunResult × σ)
    (r : ChatResponse) (p : Progress) (s : σ) : RunResult × σ :=
  let m := r.message (c.clock s)
  if isFinal r then
    match record c m p s with
    | (.error e, s) => fail c a e p s
    | (.ok p, s) => finish c a .success m.text none p s
  else if !r.hasToolCalls then exhausted c a p s
  else
    match record c m p s with
    | (.error e, s) => fail c a e p s
    | (.ok p, s) =>
      match answerAll c m.toolCalls p s with
      | (some e, p, s) => fail c a e p s
      | (none, p, s) => next p s

/-- The run from where it stands, when so many turns are left. -/
def turns (c : Collaborators σ) (a : Profile) (tools : Option String) :
    Nat → Progress → σ → RunResult × σ
  | 0, p, s => exhausted c a p s
  | left + 1, p, s =>
    if c.isShutDown s then finish c a .aborted none none p s
    else
      let p := { p with iterations := p.iterations + 1 }
      let s := c.count p.iterations s
      match c.chat (request a (c.clock s) tools p) s with
      | (.error e, s) => fail c a (.provider e) p s
      | (.ok r, s) =>
        settle c a (turns c a tools left) r { p with usage := p.usage.accumulate r.usage }
          (c.publish (.llmResponded a.name p.iterations r.finishReason r.usage.total (c.clock s)) s)

/-- The counter starts anew, and it is told that a run has begun. -/
def opened (c : Collaborators σ) (a : Profile) (s : σ) : σ :=
  let s := c.count 0 s
  c.publish (.runStarted a.name a.sessionId (c.clock s)) s

/-- One input through the loop. An error is returned only when nothing was begun. -/
def run (c : Collaborators σ) (a : Profile) (input : String) (s : σ) :
    Except Error RunResult × σ :=
  if Text.blank input then (.error (.invalidArgument "input must not be empty"), s)
  else if c.isShutDown s then (.error (sessionClosed a.sessionId), s)
  else
    let s := opened c a s
    let p := start (c.history s)
    let (result, s) := match record c (.user input (c.clock s)) p s with
      | (.error e, s) => fail c a e p s
      | (.ok p, s) => turns c a (c.schema s) a.maxIterations.toNat p s
    (.ok result, s)

end Run
end ReasonAct
