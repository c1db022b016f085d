import ReasonAct.CommandLine.Arguments
import ReasonAct.CommandLine.Demo
import ReasonAct.Config.Place
import ReasonAct.Json.Pretty
import ReasonAct.Text.Inspect
set_option autoImplicit false

namespace ReasonAct

open Text (quoted)

def ProviderError.inspect : ProviderError → String
  | .network m => Inspect.wrapped "Network" (quoted m)
  | .timeout m => Inspect.wrapped "Timeout" (quoted m)
  | .tls m => Inspect.wrapped "Tls" (quoted m)
  | .dns m => Inspect.wrapped "Dns" (quoted m)
  | .http status m =>
    Inspect.record "Http" [("status", toString status.toNat), ("message", quoted m)]
  | .auth m => Inspect.wrapped "Auth" (quoted m)
  | .backend m => Inspect.wrapped "Backend" (quoted m)
  | .noMemory m => Inspect.wrapped "NoMemory" (quoted m)
  | .notImplemented m => Inspect.wrapped "NotImplemented" (quoted m)

def ToolError.inspect : ToolError → String
  | .executionFailed tool reason =>
    Inspect.record "ExecutionFailed" [("tool", quoted tool), ("reason", quoted reason)]
  | .invalidArguments reason => Inspect.wrapped "InvalidArguments" (quoted reason)
  | .permissionDenied tool reason =>
    Inspect.record "PermissionDenied" [("tool", quoted tool), ("reason", quoted reason)]
  | .remote reason => Inspect.wrapped "Remote" (quoted reason)

def Error.inspect : Error → String
  | .invalidArgument m => Inspect.wrapped "InvalidArgument" (quoted m)
  | .outOfMemory m => Inspect.wrapped "OutOfMemory" (quoted m)
  | .notFound m => Inspect.wrapped "NotFound" (quoted m)
  | .notConnected m => Inspect.wrapped "NotConnected" (quoted m)
  | .notImplemented m => Inspect.wrapped "NotImplemented" (quoted m)
  | .invalidState m => Inspect.wrapped "InvalidState" (quoted m)
  | .provider e => Inspect.wrapped "Provider" e.inspect
  | .tool e => Inspect.wrapped "Tool" e.inspect
  | .config m => Inspect.record "Config" [("message", quoted m)]
  | .serialization detail => Inspect.wrapped "Serialization" (quoted detail)

def ConfigError.inspect : ConfigError → String
  | .unreadable path reason =>
    Inspect.record "ReadError" [("path", quoted path), ("reason", quoted reason)]
  | .malformed path =>
    Inspect.record "ParseError" [("path", quoted path), ("reason", quoted "<detail>")]
  | .invalid reason => Inspect.wrapped "ValidationError" (quoted reason)

namespace CommandLine

inductive Failure where
  | config (e : ConfigError)
  /-- A configuration that could not even be shown. -/
  | unshown (e : ConfigError)
  | run (e : Error)
  deriving DecidableEq, Repr

def Failure.text : Failure → String
  | .config e => "Error: " ++ e.inspect
  | .unshown e => "Error: " ++ quoted ("Failed to load config: " ++ e.message)
  | .run e => "Error: " ++ e.inspect

structure Report where
  lines : List String
  failure : Option Failure

def Report.stdout (r : Report) : String := String.join (r.lines.map (· ++ "\n"))

def Report.stderr (r : Report) : String :=
  match r.failure with
  | none => ""
  | some f => f.text ++ "\n"

def offeredTools : Demo.Act (Option String) := do
  let session ← (World.openSession "tools" .standard none : Demo.Act Nat)
  let registry ← (World.createRegistry session : Demo.Act Nat)
  (World.addAll registry (Builtin.all.map Tool.builtin) : Demo.Act Unit)
  pure ((← get).functions? registry)

def reportTools : Report :=
  match (offeredTools Demo.world).1 with
  | .error e => ⟨[], some (.run e)⟩
  | .ok functions =>
    let text := functions.getD "[]"
    ⟨[match Json.parse? text with
      | some j => String.ofList (j.source.pretty 0)
      | none => text], none⟩

def reportDemo (loaded : Except ConfigError Config) (maxIterations : Option UInt32)
    (prompt : String) : Report :=
  match loaded with
  | .error e => ⟨[], some (.config e)⟩
  | .ok c =>
    let c := { c with agent := { c.agent with
      maxIterations := maxIterations.getD c.agent.maxIterations } }
    match Demo.play c prompt with
    | .error e => ⟨[], some (.run e)⟩
    | .ok (result, toolRuns) => ⟨Demo.report result toolRuns, none⟩

def summary (c : Config) : List String :=
  ["   Config parsed successfully", "",
    "   Max iterations:  " ++ toString c.agent.maxIterations.toNat,
    match c.agent.timeoutMs with
    | some ms => "   Timeout:         " ++ toString ms.toNat ++ " ms"
    | none => "   Timeout:         provider default",
    "   Arena block:     " ++ toString c.arena.blockSize.toNat ++ " bytes",
    if c.maxMessages = 0 then "   Memory:          unbounded"
    else "   Memory:          last " ++ toString c.maxMessages.toNat ++ " messages"]

def reportValidation (loaded : Except ConfigError Config) : Report :=
  match loaded with
  | .ok c => ⟨"Validating configuration..." :: summary c, none⟩
  | .error e =>
    ⟨["Validating configuration...", "   Config error: " ++ e.message], some (.config e)⟩

def Invocation.path (i : Invocation) (lookup : String → Option String) : String :=
  i.config.getD (Config.standardPath lookup)

def Invocation.report (i : Invocation) (found : Config.Found) (lookup : String → Option String) :
    Report :=
  let loaded := Config.effective (i.path lookup) found lookup
  match i.command with
  | .demo maxIterations prompt => reportDemo loaded maxIterations prompt
  | .tools => reportTools
  | .showConfig =>
    match loaded with
    | .ok c => ⟨[c.toml], none⟩
    | .error e => ⟨[], some (.unshown e)⟩
  | .validateConfig => reportValidation loaded
  | .configPath => ⟨[Config.standardPath lookup], none⟩

end CommandLine
end ReasonAct
