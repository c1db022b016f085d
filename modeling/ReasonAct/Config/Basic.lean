import ReasonAct.Error
import ReasonAct.Run.Result
import ReasonAct.Toml.Parser
set_option autoImplicit false

namespace ReasonAct

/-- Sizes in bytes of an arena's first block and of the blocks added later. -/
structure ArenaSettings where
  initialCapacity : UInt64
  blockSize : UInt64
  deriving DecidableEq, Repr

structure AgentDefaults where
  maxIterations : UInt32
  timeoutMs : Option UInt64
  instructions : Option String
  deriving DecidableEq, Repr

structure Config where
  arena : ArenaSettings
  agent : AgentDefaults
  /-- How many messages a memory keeps; zero stands for all. -/
  maxMessages : UInt64
  workingDir : Option String
  deriving DecidableEq, Repr

def ArenaSettings.standard : ArenaSettings := ⟨65536, 65536⟩

def AgentDefaults.standard : AgentDefaults := ⟨defaultMaxIterations, none, none⟩

namespace Config

def standard : Config := ⟨.standard, .standard, 0, none⟩

instance : Inhabited Config := ⟨standard⟩

def leastBlock : Nat := 1024

open Json Source

def source (c : Config) : Source :=
  .object [("arena", .object [("initial_capacity", .uint64 c.arena.initialCapacity),
      ("block_size", .uint64 c.arena.blockSize)]),
    ("agent", .object (("max_iterations", .uint32 c.agent.maxIterations) ::
      (given "timeout_ms" .uint64 c.agent.timeoutMs ++
        given "instructions" .string c.agent.instructions))),
    ("memory", .object [("max_messages", .uint64 c.maxMessages)]),
    ("session", .object (given "working_dir" .string c.workingDir))]

def arenaFields : List String := ["initial_capacity", "block_size"]
def agentFields : List String := ["max_iterations", "timeout_ms", "instructions"]
def memoryFields : List String := ["max_messages"]
def sessionFields : List String := ["working_dir"]

def sections : List (String × List String) :=
  [("arena", arenaFields), ("agent", agentFields), ("memory", memoryFields),
    ("session", sessionFields)]

def arenaOf? (s : Source) : Option ArenaSettings := do
  let r ← s.record? arenaFields
  pure ⟨← r.defaulted "initial_capacity" ArenaSettings.standard.initialCapacity uint64?,
    ← r.defaulted "block_size" ArenaSettings.standard.blockSize uint64?⟩

def agentOf? (s : Source) : Option AgentDefaults := do
  let r ← s.record? agentFields
  pure ⟨← r.defaulted "max_iterations" defaultMaxIterations uint32?,
    ← r.optional "timeout_ms" uint64?, ← r.optional "instructions" string?⟩

def memoryOf? (s : Source) : Option UInt64 := do
  let r ← s.record? memoryFields
  r.defaulted "max_messages" 0 uint64?

def sessionOf? (s : Source) : Option (Option String) := do
  let r ← s.record? sessionFields
  r.optional "working_dir" string?

def ofSource? (s : Source) : Option Config := do
  let r ← s.record? (sections.map Prod.fst)
  pure ⟨← r.defaulted "arena" .standard arenaOf?, ← r.defaulted "agent" .standard agentOf?,
    ← r.defaulted "memory" 0 memoryOf?, ← r.defaulted "session" none sessionOf?⟩

/-- A list in place of a section, without the values that no field is left for. -/
def fitted (name : String) : Source → Source
  | .array items => .array (items.take ((sections.lookup name).getD []).length)
  | s => s

/-- TOML is read like JSON, except that a list may be longer than the section it stands for. -/
def ofTables? : Source → Option Config
  | .object fields => ofSource? (.object (fields.map fun (k, s) => (k, fitted k s)))
  | s => ofSource? s

def ofToml? (text : String) : Option Config := (Toml.parse? text).bind fun t => ofTables? t.source

/-- TOML has no integer of more than 63 bits. -/
def tomlNat? (n : Nat) : Option (List Char) :=
  if 2 * n < UInt64.size then some (Decimal.natDigits n) else none

def line (key : String) (value : List Char) : List Char :=
  key.toList ++ " = ".toList ++ value ++ ['\n']

def lineGiven {α : Type} (key : String) (write : α → Option (List Char)) :
    Option α → Option (List Char)
  | none => some []
  | some x => (write x).map (line key)

def heading (name : String) (body : List Char) : List Char :=
  '[' :: name.toList ++ [']', '\n'] ++ body

def tomlChars? (c : Config) : Option (List Char) := do
  let capacity ← tomlNat? c.arena.initialCapacity.toNat
  let block ← tomlNat? c.arena.blockSize.toNat
  let iterations ← tomlNat? c.agent.maxIterations.toNat
  let timeout ← lineGiven "timeout_ms" (fun n : UInt64 => tomlNat? n.toNat) c.agent.timeoutMs
  let instructions ← lineGiven "instructions" (fun s => some (Toml.quoted s)) c.agent.instructions
  let messages ← tomlNat? c.maxMessages.toNat
  let dir ← lineGiven "working_dir" (fun s => some (Toml.quoted s)) c.workingDir
  pure (heading "arena" (line "initial_capacity" capacity ++ line "block_size" block) ++ ['\n'] ++
    heading "agent" (line "max_iterations" iterations ++ timeout ++ instructions) ++ ['\n'] ++
    heading "memory" (line "max_messages" messages) ++ ['\n'] ++
    heading "session" dir)

def toml (c : Config) : String := String.ofList (c.tomlChars?.getD [])

end Config

inductive ConfigError where
  | unreadable (path reason : String)
  | malformed (path : String)
  | invalid (reason : String)
  deriving DecidableEq, Repr

def ConfigError.name : ConfigError → String
  | .unreadable _ _ => "read_error"
  | .malformed _ => "parse_error"
  | .invalid _ => "validation_error"

def ConfigError.message : ConfigError → String
  | .unreadable path reason => "Failed to read config file at " ++ path ++ ": " ++ reason
  | .malformed path => "Failed to parse config file at " ++ path ++ ": <detail>"
  | .invalid reason => "Configuration validation failed: " ++ reason

def Error.ofConfig (e : ConfigError) : Error := .config e.message

namespace Config

def validate (c : Config) : Except ConfigError Unit :=
  if c.agent.maxIterations = 0 then
    .error (.invalid "agent.max_iterations must be at least 1")
  else if c.arena.blockSize.toNat < leastBlock then
    .error (.invalid ("arena.block_size must be at least " ++ toString leastBlock ++ " bytes"))
  else .ok ()

inductive Found where
  | missing
  | failed (reason : String)
  | text (s : String)

/-- A place that holds nothing gives the defaults. -/
def load (path : String) : Found → Except ConfigError Config
  | .missing => .ok standard
  | .failed reason => .error (.unreadable path reason)
  | .text s =>
    match ofToml? s with
    | none => .error (.malformed path)
    | some c => c.validate.map fun _ => c

/-- A whole number in the environment: white space around it, one plus sign in front. -/
def envNat? (raw : String) : Option Nat :=
  let cs := (Text.trim raw).toList
  let ds := match cs with
    | '+' :: rest => rest
    | rest => rest
  if ds.isEmpty || !ds.all Char.isDigit then none else some (Nat.ofDigitChars 10 ds 0)

def iterationsVariable : String := "FERROACT_MAX_ITERATIONS"
def timeoutVariable : String := "FERROACT_TIMEOUT_MS"
def workingDirVariable : String := "FERROACT_WORKING_DIR"

/-- Puts a number below `size` into a configuration, or refuses what is none. -/
def withNumber (size : Nat) (put : Nat → Config → Config) (refusal raw : String) (c : Config) :
    Except ConfigError Config :=
  match (envNat? raw).filter (· < size) with
  | some n => .ok (put n c)
  | none => .error (.invalid (refusal ++ raw ++ "'"))

def withIterations : String → Config → Except ConfigError Config :=
  withNumber UInt32.size
    (fun n c => { c with agent := { c.agent with maxIterations := UInt32.ofNat n } })
    (iterationsVariable ++ " must be a positive integer, got '")

def withTimeout : String → Config → Except ConfigError Config :=
  withNumber UInt64.size
    (fun n c => { c with agent := { c.agent with timeoutMs := some (UInt64.ofNat n) } })
    (timeoutVariable ++ " must be an integer, got '")

/-- Takes the variables that are set, one after another, and stops at the first bad one: the
configuration holds what was taken until then. -/
def withEnv (lookup : String → Option String) (c : Config) : Config × Option ConfigError :=
  let overriding (name : String) (set : String → Config → Except ConfigError Config)
      (s : Config × Option ConfigError) : Config × Option ConfigError :=
    match s.2, lookup name with
    | none, some raw =>
      match set raw s.1 with
      | .ok c => (c, none)
      | .error e => (s.1, some e)
    | _, _ => s
  overriding workingDirVariable (fun raw c => .ok { c with workingDir := some raw })
    (overriding timeoutVariable withTimeout
      (overriding iterationsVariable withIterations (c, none)))

def effective (path : String) (found : Found) (lookup : String → Option String) :
    Except ConfigError Config := do
  let c ← load path found
  match c.withEnv lookup with
  | (_, some e) => .error e
  | (c, none) => do
    c.validate
    pure c

end Config
end ReasonAct
