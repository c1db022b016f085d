import ReasonAct.Text.Inspect
import ReasonAct.World.Registry
set_option autoImplicit false

namespace ReasonAct

open Text (quoted)

def SessionCounts.inspect (c : SessionCounts) : String :=
  Inspect.record "SessionCounts" [("agents", toString c.agents),
    ("registries", toString c.registries), ("protocol_clients", toString c.protocolClients)]

def Session.inspect (s : Session) : String :=
  Inspect.record "Session"
    [("id", quoted s.label), ("closed", toString s.closed), ("counts", s.counts.inspect)]

def ToolDescriptor.inspect (d : ToolDescriptor) : String :=
  Inspect.record "ToolDescriptor" [("name", quoted d.name), ("description", quoted d.description),
    ("parameters", quoted d.parameters)]

/-- Of the data of a user only their presence is shown. -/
def ToolContext.inspect (c : ToolContext) : String :=
  Inspect.record "ToolContext" [("session_id", quoted c.sessionId),
    ("working_dir", Inspect.option (c.workingDir.map quoted)),
    ("user_data", Inspect.option (c.userData.map fun _ => quoted "<opaque>"))]

namespace World

def inspectRegistry (w : World) (id : Nat) (r : Registry) : String :=
  Inspect.record "ToolRegistry" [("session_id", quoted (w.labelOf r.session)),
    ("tools", Inspect.list ((w.toolNames id).map quoted))]

def inspectAgent (w : World) (a : Agent) : String :=
  Inspect.record "Agent" [("name", quoted a.name), ("session_id", quoted (w.labelOf a.session)),
    ("max_iterations", toString a.maxIterations.toNat), ("iterations", toString a.iterations.toNat)]

end World
end ReasonAct
