import ReasonAct.Decimal.Layout
/-!
The arguments of the program. Each command has flags of its own; two flags are known everywhere,
and the one given for the innermost command counts. No flag is given twice for one command.
-/
set_option autoImplicit false

namespace ReasonAct.CommandLine

inductive Flag where
  | config
  | verbose
  | maxIterations
  | prompt
  | help
  | version
  deriving DecidableEq, Repr

def Flag.letter : Flag → Char
  | .config => 'c'
  | .verbose => 'v'
  | .maxIterations => 'm'
  | .prompt => 'p'
  | .help => 'h'
  | .version => 'V'

def Flag.word : Flag → String
  | .config => "config"
  | .verbose => "verbose"
  | .maxIterations => "max-iterations"
  | .prompt => "prompt"
  | .help => "help"
  | .version => "version"

def Flag.takesValue : Flag → Bool
  | .config | .maxIterations | .prompt => true
  | .verbose | .help | .version => false

inductive Level where
  | program
  | demo
  | tools
  | config
  | showConfig
  | validateConfig
  | configPath
  deriving DecidableEq, Repr

def Level.flags : Level → List Flag
  | .program => [.config, .verbose, .help, .version]
  | .demo => [.config, .verbose, .maxIterations, .prompt, .help]
  | _ => [.config, .verbose, .help]

def Level.commands : Level → List (String × Level)
  | .program => [("demo", .demo), ("tools", .tools), ("config", .config)]
  | .config => [("show", .showConfig), ("validate", .validateConfig), ("path", .configPath)]
  | _ => []

inductive Command where
  | demo (maxIterations : Option UInt32) (prompt : String)
  | tools
  | showConfig
  | validateConfig
  | configPath
  deriving DecidableEq, Repr

structure Invocation where
  config : Option String
  verbose : Bool
  command : Command
  deriving DecidableEq, Repr

inductive Stop where
  | misused
  | help
  | version
  deriving DecidableEq, Repr

def standardPrompt : String := "What is (17 + 4) * 2?"

/-- What was given so far; `seen` holds the flags of the innermost command. -/
structure Given where
  seen : List Flag
  config : Option String
  verbose : Bool
  maxIterations : Option UInt32
  prompt : Option String

namespace Given

def nothing : Given := ⟨[], none, false, none, none⟩

/-- A whole number, with a sign if need be. -/
def uint32? (value : String) : Option UInt32 :=
  let (negative, ds) := match value.toList with
    | '-' :: rest => (true, rest)
    | '+' :: rest => (false, rest)
    | rest => (false, rest)
  let n := Nat.ofDigitChars 10 ds 0
  if ds.isEmpty || !ds.all Char.isDigit || UInt32.size ≤ n || negative && n ≠ 0 then none
  else some (UInt32.ofNat n)

def note (f : Flag) (g : Given) : Except Stop Given :=
  if f ∈ g.seen then .error .misused else .ok { g with seen := f :: g.seen }

def raise (f : Flag) (g : Given) : Except Stop Given :=
  match f with
  | .help => .error .help
  | .version => .error .version
  | .verbose => (g.note f).map fun g => { g with verbose := true }
  | _ => .error .misused

def set (f : Flag) (value : String) (g : Given) : Except Stop Given := do
  let g ← g.note f
  match f with
  | .config => if value.isEmpty then .error .misused else .ok { g with config := some value }
  | .maxIterations =>
    match uint32? value with
    | some n => .ok { g with maxIterations := some n }
    | none => .error .misused
  | .prompt => .ok { g with prompt := some value }
  | _ => .error .misused

def finish (g : Given) : Level → Except Stop Invocation
  | .program | .config => .error .misused
  | .demo => .ok ⟨g.config, g.verbose, .demo g.maxIterations (g.prompt.getD standardPrompt)⟩
  | .tools => .ok ⟨g.config, g.verbose, .tools⟩
  | .showConfig => .ok ⟨g.config, g.verbose, .showConfig⟩
  | .validateConfig => .ok ⟨g.config, g.verbose, .validateConfig⟩
  | .configPath => .ok ⟨g.config, g.verbose, .configPath⟩

end Given

/-- Takes the letters of one argument. The rest after a flag with a value is that value, with an
equals sign between them or not; if nothing is left the flag waits for the next argument. -/
def letters (level : Level) : List Char → Given → Except Stop (Given × Option Flag)
  | [], g => .ok (g, none)
  | c :: rest, g =>
    match level.flags.find? (·.letter = c) with
    | none => .error .misused
    | some f =>
      if f.takesValue then
        match rest with
        | [] => .ok (g, some f)
        | '=' :: value => (g.set f (String.ofList value)).map fun g => (g, none)
        | value => (g.set f (String.ofList value)).map fun g => (g, none)
      else do
        let g ← g.raise f
        letters level rest g

def word (level : Level) (cs : List Char) (g : Given) : Except Stop (Given × Option Flag) :=
  let name := cs.takeWhile (· ≠ '=')
  match level.flags.find? (·.word.toList = name) with
  | none => .error .misused
  | some f =>
    match cs.drop name.length with
    | [] => if f.takesValue then .ok (g, some f) else (g.raise f).map fun g => (g, none)
    | _ :: value =>
      if f.takesValue then (g.set f (String.ofList value)).map fun g => (g, none)
      else .error .misused

/-- Takes the flags of one argument. Nothing but flags and commands is taken. -/
def flags (level : Level) (arg : String) (g : Given) : Except Stop (Given × Option Flag) :=
  match arg.toList with
  | '-' :: '-' :: cs => word level cs g
  | '-' :: c :: cs => letters level (c :: cs) g
  | _ => .error .misused

def isFlag (arg : String) : Bool :=
  match arg.toList with
  | '-' :: _ :: _ => true
  | _ => false

def helpOn : Level → List String → Stop
  | _, [] => .help
  | level, name :: names =>
    match level.commands.lookup name with
    | some inner => helpOn inner names
    | none => if name = "help" && !level.commands.isEmpty then .help else .misused

def read : Level → Given → List String → Except Stop Invocation
  | level, g, [] => g.finish level
  | level, g, arg :: rest =>
    match level.commands.lookup arg with
    | some inner => read inner { g with seen := [] } rest
    | none =>
      if arg = "help" && !level.commands.isEmpty then .error (helpOn level rest)
      else if arg = "--" then if rest.isEmpty then g.finish level else .error .misused
      else match flags level arg g with
        | .error stop => .error stop
        | .ok (g, none) => read level g rest
        | .ok (g, some f) =>
          match rest with
          | [] => .error .misused
          | value :: rest =>
            if isFlag value then .error .misused
            else match g.set f value with
              | .error stop => .error stop
              | .ok g => read level g rest

def parse (args : List String) : Except Stop Invocation := read .program .nothing args

end ReasonAct.CommandLine
