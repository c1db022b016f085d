import ReasonAct.Json.Record
set_option autoImplicit false

namespace ReasonAct

inductive ErrorCode where
  | invalidArgument
  | outOfMemory
  | notFound
  | notConnected
  | notImplemented
  | invalidState
  | network
  | timeout
  | tls
  | dns
  | http
  | auth
  | backend
  | tool
  | config
  | serialization
  deriving DecidableEq, Repr, Inhabited

namespace ErrorCode

def name : ErrorCode → String
  | .invalidArgument => "invalid_argument"
  | .outOfMemory => "out_of_memory"
  | .notFound => "not_found"
  | .notConnected => "not_connected"
  | .notImplemented => "not_implemented"
  | .invalidState => "invalid_state"
  | .network => "network"
  | .timeout => "timeout"
  | .tls => "tls"
  | .dns => "dns"
  | .http => "http"
  | .auth => "auth"
  | .backend => "backend"
  | .tool => "tool"
  | .config => "config"
  | .serialization => "serialization"

def all : List ErrorCode :=
  [.invalidArgument, .outOfMemory, .notFound, .notConnected, .notImplemented, .invalidState,
    .network, .timeout, .tls, .dns, .http, .auth, .backend, .tool, .config, .serialization]

def ofName? (s : String) : Option ErrorCode := all.find? (·.name = s)

def source (c : ErrorCode) : Json.Source := .string c.name

def ofSource? (s : Json.Source) : Option ErrorCode := s.name?.bind ofName?

end ErrorCode

inductive ProviderError where
  | network (message : String)
  | timeout (message : String)
  | tls (message : String)
  | dns (message : String)
  | http (status : UInt16) (message : String)
  | auth (message : String)
  | backend (message : String)
  | noMemory (message : String)
  | notImplemented (message : String)
  deriving DecidableEq, Repr, Inhabited

namespace ProviderError

def code : ProviderError → ErrorCode
  | .network _ => .network
  | .timeout _ => .timeout
  | .tls _ => .tls
  | .dns _ => .dns
  | .http _ _ => .http
  | .auth _ => .auth
  | .backend _ => .backend
  | .noMemory _ => .outOfMemory
  | .notImplemented _ => .notImplemented

def message : ProviderError → String
  | .network m => "Network error: " ++ m
  | .timeout m => "Request timed out: " ++ m
  | .tls m => "TLS error: " ++ m
  | .dns m => "DNS resolution failed: " ++ m
  | .http status m => "HTTP request failed: " ++ m ++ " (status: " ++ toString status.toNat ++ ")"
  | .auth m => "Authentication failed: " ++ m
  | .backend m => "Backend error: " ++ m
  | .noMemory m => "Provider ran out of memory: " ++ m
  | .notImplemented m => "Not implemented by provider: " ++ m

/-- Whether another provider may succeed where this one failed. -/
def isTransient : ProviderError → Bool
  | .network _ | .timeout _ | .dns _ | .backend _ => true
  | .http status _ => status == 429 || 500 ≤ status
  | _ => false

end ProviderError

/-- Failures of a tool. They end no run: the model reads them as output. -/
inductive ToolError where
  | executionFailed (tool reason : String)
  | invalidArguments (reason : String)
  | permissionDenied (tool reason : String)
  | remote (reason : String)
  deriving DecidableEq, Repr, Inhabited

def ToolError.message : ToolError → String
  | .executionFailed tool reason => "Tool execution failed: " ++ tool ++ " — " ++ reason
  | .invalidArguments reason => "Invalid tool arguments: " ++ reason
  | .permissionDenied tool reason => "Permission denied: " ++ tool ++ " — " ++ reason
  | .remote reason => "Remote tool call failed: " ++ reason

def ToolError.name : ToolError → String
  | .executionFailed _ _ => "execution_failed"
  | .invalidArguments _ => "invalid_arguments"
  | .permissionDenied _ _ => "permission_denied"
  | .remote _ => "remote"

inductive Error where
  | invalidArgument (message : String)
  | outOfMemory (message : String)
  | notFound (message : String)
  | notConnected (message : String)
  | notImplemented (message : String)
  | invalidState (message : String)
  | provider (e : ProviderError)
  | tool (e : ToolError)
  | config (message : String)
  | serialization (detail : String)
  deriving DecidableEq, Repr, Inhabited

namespace Error

def code : Error → ErrorCode
  | .invalidArgument _ => .invalidArgument
  | .outOfMemory _ => .outOfMemory
  | .notFound _ => .notFound
  | .notConnected _ => .notConnected
  | .notImplemented _ => .notImplemented
  | .invalidState _ => .invalidState
  | .provider e => e.code
  | .tool _ => .tool
  | .config _ => .config
  | .serialization _ => .serialization

def message : Error → String
  | .invalidArgument m => "Invalid argument: " ++ m
  | .outOfMemory m => "Out of memory: " ++ m
  | .notFound m => "Not found: " ++ m
  | .notConnected m => "Not connected: " ++ m
  | .notImplemented m => "Not implemented: " ++ m
  | .invalidState m => "Invalid state: " ++ m
  | .provider e => "Provider error: " ++ e.message
  | .tool e => "Tool error: " ++ e.message
  | .config m => "Configuration error: " ++ m
  | .serialization detail => "Serialization error: " ++ detail

end Error
end ReasonAct
