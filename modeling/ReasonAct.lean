import ReasonAct.Arena.Basic
import ReasonAct.Arena.Block
import ReasonAct.Arena.Pool
import ReasonAct.Arena.Shared
import ReasonAct.Calculator.Evaluate
import ReasonAct.Calculator.Grammar
import ReasonAct.Calculator.Token
import ReasonAct.Chat.Block
import ReasonAct.Chat.Message
import ReasonAct.Chat.Request
import ReasonAct.Chat.Response
import ReasonAct.Chat.Usage
import ReasonAct.CommandLine.Arguments
import ReasonAct.CommandLine.Demo
import ReasonAct.CommandLine.Report
import ReasonAct.Config.Basic
import ReasonAct.Config.Place
import ReasonAct.Decimal.Binary
import ReasonAct.Decimal.Layout
import ReasonAct.Decimal.Shortest
import ReasonAct.Error
import ReasonAct.Event.Basic
import ReasonAct.Event.Bus
import ReasonAct.Files.Path
import ReasonAct.Files.Tree
import ReasonAct.Json.Basic
import ReasonAct.Json.Numeral
import ReasonAct.Json.Parser
import ReasonAct.Json.Pretty
import ReasonAct.Json.Record
import ReasonAct.Json.Source
import ReasonAct.Json.Token
import ReasonAct.Main
import ReasonAct.Memory.Basic
import ReasonAct.Proofs.Arena.Block
import ReasonAct.Proofs.Arena.History
import ReasonAct.Proofs.Arena.Journal
import ReasonAct.Proofs.Arena.Layout
import ReasonAct.Proofs.Arena.Occupancy
import ReasonAct.Proofs.Arena.Placement
import ReasonAct.Proofs.Arena.Reuse
import ReasonAct.Proofs.Arena.Store
import ReasonAct.Proofs.Arena.Validity
import ReasonAct.Proofs.Calculator.Derivation
import ReasonAct.Proofs.Calculator.Items
import ReasonAct.Proofs.Calculator.Lexing
import ReasonAct.Proofs.Calculator.Reading
import ReasonAct.Proofs.Chat.Conversion
import ReasonAct.Proofs.Chat.Payload
import ReasonAct.Proofs.Chat.Usage
import ReasonAct.Proofs.Chat.Wire
import ReasonAct.Proofs.Config.Document
import ReasonAct.Proofs.Config.Effective
import ReasonAct.Proofs.Config.Environment
import ReasonAct.Proofs.Config.Toml
import ReasonAct.Proofs.Config.Wire
import ReasonAct.Proofs.Files.Resolution
import ReasonAct.Proofs.Json.Grammar
import ReasonAct.Proofs.Json.Lexing
import ReasonAct.Proofs.Json.Meaning
import ReasonAct.Proofs.Json.Numeral
import ReasonAct.Proofs.Json.Reading
import ReasonAct.Proofs.Json.Scanning
import ReasonAct.Proofs.Memory.Append
import ReasonAct.Proofs.Memory.Eviction
import ReasonAct.Proofs.Memory.Retention
import ReasonAct.Proofs.Provider.Chain
import ReasonAct.Proofs.Provider.Nesting
import ReasonAct.Proofs.Run.Accounting
import ReasonAct.Proofs.Run.Alignment
import ReasonAct.Proofs.Run.Along
import ReasonAct.Proofs.Run.Attached
import ReasonAct.Proofs.Run.Closing
import ReasonAct.Proofs.Run.Conversation
import ReasonAct.Proofs.Run.Course
import ReasonAct.Proofs.Run.Decisive
import ReasonAct.Proofs.Run.Effects
import ReasonAct.Proofs.Run.Narration
import ReasonAct.Proofs.Run.Requests
import ReasonAct.Proofs.Run.Simulation
import ReasonAct.Proofs.Run.Trace
import ReasonAct.Proofs.Run.Transcript
import ReasonAct.Proofs.Run.Unarmed
import ReasonAct.Proofs.Run.Watch
import ReasonAct.Proofs.Run.Wire
import ReasonAct.Proofs.Text.Blank
import ReasonAct.Proofs.Text.Truncation
import ReasonAct.Proofs.Text.Utf8
import ReasonAct.Proofs.Toml.Quoted
import ReasonAct.Proofs.Toml.Range
import ReasonAct.Proofs.Toml.Scalar
import ReasonAct.Proofs.Tool.Confinement
import ReasonAct.Proofs.Tool.Echo
import ReasonAct.Proofs.Tool.Excerpt
import ReasonAct.Proofs.Wire
import ReasonAct.Proofs.World.Admission
import ReasonAct.Proofs.World.Chronicle
import ReasonAct.Proofs.World.Closed
import ReasonAct.Proofs.World.Code
import ReasonAct.Proofs.World.Conclusion
import ReasonAct.Proofs.World.Discovery
import ReasonAct.Proofs.World.Dispatch
import ReasonAct.Proofs.World.Export
import ReasonAct.Proofs.World.Isolation
import ReasonAct.Proofs.World.Legible
import ReasonAct.Proofs.World.Lifecycle
import ReasonAct.Proofs.World.Listing
import ReasonAct.Proofs.World.Orderly
import ReasonAct.Proofs.World.Ownership
import ReasonAct.Proofs.World.Reaches
import ReasonAct.Proofs.World.Solo
import ReasonAct.Proofs.World.Spared
import ReasonAct.Proofs.World.Teardown
import ReasonAct.Proofs.World.Tended
import ReasonAct.Proofs.World.Toolless
import ReasonAct.Provider.Attempt
import ReasonAct.Provider.Catalog
import ReasonAct.Run.Loop
import ReasonAct.Run.Result
import ReasonAct.Stream.Channel
import ReasonAct.Stream.Event
import ReasonAct.Text.Blank
import ReasonAct.Text.Inspect
import ReasonAct.Text.Printable
import ReasonAct.Text.Quoted
import ReasonAct.Text.Utf8
import ReasonAct.Time.Instant
import ReasonAct.Time.Rfc3339
import ReasonAct.Toml.Basic
import ReasonAct.Toml.Parser
import ReasonAct.Toml.Quoted
import ReasonAct.Toml.Scalar
import ReasonAct.Tool.Basic
import ReasonAct.Tool.Builtin
import ReasonAct.World.Agent
import ReasonAct.World.Basic
import ReasonAct.World.Inspect
import ReasonAct.World.Registry
import ReasonAct.World.Session
import ReasonAct.World.Tool
import ReasonAct.Proofs.Stream.Traffic
import ReasonAct.Proofs.Stream.Delivery
