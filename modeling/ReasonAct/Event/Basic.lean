import ReasonAct.Run.Result
set_option autoImplicit false

namespace ReasonAct

inductive Event where
  | runStarted (agent sessionId : String) (timestamp : Instant)
  | llmResponded (agent : String) (iteration : UInt32) (finishReason : Option String)
      (tokensUsed : UInt64) (timestamp : Instant)
  | toolExecuted (toolName : String) (isError : Bool) (durationMs : UInt64) (timestamp : Instant)
  | runFinished (agent : String) (status : RunStatus) (iterations : UInt32) (totalTokens : UInt64)
      (timestamp : Instant)
  | sessionClosed (sessionId : String) (agents registries protocolClients : UInt64)
      (timestamp : Instant)
  deriving DecidableEq, Inhabited

namespace Event

open Json Source

def source : Event → Source
  | .runStarted agent sessionId t =>
    .object [("RunStarted", .object [("agent", .string agent), ("session_id", .string sessionId),
      ("timestamp", .instant t)])]
  | .llmResponded agent iteration reason tokens t =>
    .object [("LlmResponded", .object [("agent", .string agent), ("iteration", .uint32 iteration),
      ("finish_reason", (reason.map Source.string).getD .null), ("tokens_used", .uint64 tokens),
      ("timestamp", .instant t)])]
  | .toolExecuted name isError duration t =>
    .object [("ToolExecuted", .object [("tool_name", .string name), ("is_error", .bool isError),
      ("duration_ms", .uint64 duration), ("timestamp", .instant t)])]
  | .runFinished agent status iterations tokens t =>
    .object [("RunFinished", .object [("agent", .string agent), ("status", status.source),
      ("iterations", .uint32 iterations), ("total_tokens", .uint64 tokens),
      ("timestamp", .instant t)])]
  | .sessionClosed sessionId agents registries clients t =>
    .object [("SessionClosed", .object [("session_id", .string sessionId),
      ("agents", .uint64 agents), ("registries", .uint64 registries),
      ("protocol_clients", .uint64 clients), ("timestamp", .instant t)])]

def ofKind? (kind : String) (s : Source) : Option Event :=
  match kind with
  | "RunStarted" => do
    let r ← s.record? ["agent", "session_id", "timestamp"]
    pure (.runStarted (← r.required "agent" string?) (← r.required "session_id" string?)
      (← r.required "timestamp" instant?))
  | "LlmResponded" => do
    let r ← s.record? ["agent", "iteration", "finish_reason", "tokens_used", "timestamp"]
    pure (.llmResponded (← r.required "agent" string?) (← r.required "iteration" uint32?)
      (← r.nullable "finish_reason" string?) (← r.required "tokens_used" uint64?)
      (← r.required "timestamp" instant?))
  | "ToolExecuted" => do
    let r ← s.record? ["tool_name", "is_error", "duration_ms", "timestamp"]
    pure (.toolExecuted (← r.required "tool_name" string?) (← r.required "is_error" bool?)
      (← r.required "duration_ms" uint64?) (← r.required "timestamp" instant?))
  | "RunFinished" => do
    let r ← s.record? ["agent", "status", "iterations", "total_tokens", "timestamp"]
    pure (.runFinished (← r.required "agent" string?) (← r.required "status" RunStatus.ofSource?)
      (← r.required "iterations" uint32?) (← r.required "total_tokens" uint64?)
      (← r.required "timestamp" instant?))
  | "SessionClosed" => do
    let r ← s.record? ["session_id", "agents", "registries", "protocol_clients", "timestamp"]
    pure (.sessionClosed (← r.required "session_id" string?) (← r.required "agents" uint64?)
      (← r.required "registries" uint64?) (← r.required "protocol_clients" uint64?)
      (← r.required "timestamp" instant?))
  | _ => none

/-- An event is an object with one member, whose key is the kind. -/
def ofSource? : Source → Option Event
  | .object [(kind, s)] => ofKind? kind s
  | _ => none

end Event
end ReasonAct
