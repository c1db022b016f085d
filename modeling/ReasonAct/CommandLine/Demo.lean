import ReasonAct.World.Agent
set_option autoImplicit false

namespace ReasonAct.Demo

abbrev Act := ExceptT Error (StateM World)

def expression : String := "(17 + 4) * 2"

/-- Numbers as they are read out: without an exponent, and whole ones without a point. -/
def spoken : Decimal.Layout := ⟨.up, -400, 400, false, false⟩

def conclusion : String :=
  match Calculator.evaluate expression with
  | .ok x => expression ++ " = " ++ spoken.text x ++ "."
  | .error fault => "I could not evaluate that: " ++ fault.message

def tokens (input output : UInt64) : Usage :=
  { Usage.zero with inputTokens := input, outputTokens := output }

def script : Script where
  name := "scripted-demo"
  outcomes :=
    [.ok { ChatResponse.toolUse [⟨"call_1", "calculator",
        (Json.ofFields [("expression", .string expression)]).text⟩] with usage := tokens 24 12 },
      .ok { ChatResponse.stop conclusion with usage := tokens 40 9 }]
  preludes := []
  requests := []

def busCapacity : Nat := 64

def world : World := .empty Arena.addressable ⟨.directory [], []⟩ none .epoch

/-- Opens a session with the tools of the library, puts the prompt to one agent, and closes the
session again. -/
def session (config : Config) (bus : Nat) (prompt : String) : Act RunResult := do
  let session ← (World.openSession "demo" config (some bus) : Act Nat)
  let registry ← (World.createRegistry session : Act Nat)
  (World.addAll registry (Builtin.all.map Tool.builtin) : Act Unit)
  let memory ← modifyGet (World.addMemory (.empty (.kept config.maxMessages.toNat)))
  let model ← modifyGet (World.addScript script)
  let options : AgentOptions := { AgentOptions.ofDefaults "demo" config.agent with
    registry := some registry, memory := some memory }
  let agent ← (World.createAgent session options (.script model script.name) : Act Nat)
  let result ← (World.run agent prompt : Act RunResult)
  modify (World.close session)
  pure result

def isToolRun : Event → Bool
  | .toolExecuted _ _ _ _ => true
  | _ => false

def play (config : Config) (prompt : String) : Except Error (RunResult × Nat) :=
  let (receiver, bus) := (Bus.create busCapacity).subscribe
  let (id, w) := world.addBus bus
  let (result, w) := session config id prompt w
  let heard := ((w.buses[id]?).map fun b => (b.pending receiver).events).getD []
  result.map fun r => (r, heard.countP isToolRun)

def speaker : Role → String
  | .system => "System"
  | .user => "User"
  | .assistant => "Assistant"
  | .tool => "Tool"

def verdict : RunStatus → String
  | .success => "Success"
  | .maxIterations => "MaxIterations"
  | .error => "Error"
  | .aborted => "Aborted"

def speakerWidth : Nat := 9

def spokenBy (r : Role) (text : String) : String :=
  let name := speaker r
  "  " ++ name ++ String.ofList (List.replicate (speakerWidth - name.length) ' ') ++ " " ++ text

def turnLines (m : Message) : List String :=
  match m.toolCalls with
  | [] => [spokenBy m.role (m.content.getD "")]
  | calls => calls.map fun c => spokenBy .assistant ("-> " ++ c.name ++ "(" ++ c.arguments ++ ")")

def report (r : RunResult) (toolRuns : Nat) : List String :=
  ["Transcript", "=========="] ++ r.messages.flatMap turnLines ++
    ["", "  Status:      " ++ verdict r.status,
      "  Iterations:  " ++ toString r.iterations.toNat,
      "  Tokens:      " ++ toString r.totalTokens.toNat] ++
    (r.response.map fun s => "  Response:    " ++ s).toList ++
    ["  Tool runs:   " ++ toString toolRuns]

end ReasonAct.Demo
