import ReasonAct.Calculator.Evaluate
import ReasonAct.Chat.Request
import ReasonAct.Error
import ReasonAct.Files.Tree
set_option autoImplicit false

namespace ReasonAct

structure ToolContext where
  sessionId : String
  workingDir : Option String
  userData : Option String
  deriving DecidableEq, Repr, Inhabited

/-- The value of an argument text; a blank one stands for no arguments. -/
def parseArguments (arguments : String) : Except ToolError Json :=
  if Text.blank arguments then .ok (.object [])
  else match Json.parse? arguments with
    | some j => .ok j
    | none => .error (.invalidArguments "arguments are not valid JSON: <detail>")

inductive Builtin where
  | echo
  | calculator
  | fileRead (maxBytes : Nat)
  | currentTime
  deriving DecidableEq, Repr, Inhabited

namespace Builtin

/-- How much of a file is shown unless a tool is made with another limit. -/
def defaultMaxBytes : Nat := 1048576

def all : List Builtin := [.echo, .calculator, .fileRead defaultMaxBytes, .currentTime]

def name : Builtin → String
  | .echo => "echo"
  | .calculator => "calculator"
  | .fileRead _ => "file_read"
  | .currentTime => "current_time"

def description : Builtin → String
  | .echo => "Echo the given arguments back unchanged."
  | .calculator =>
    "Evaluate an arithmetic expression. Supports + - * / % ^, parentheses and decimals."
  | .fileRead _ =>
    "Read a UTF-8 text file. Relative paths resolve against the working directory."
  | .currentTime => "Get the current date and time, optionally shifted to a UTC offset in hours."

def oneProperty (name type description : String) (required : Bool) : Json :=
  .ofFields (("type", .string "object") ::
    ("properties", .ofFields [(name, .ofFields
      [("type", .string type), ("description", .string description)])]) ::
    if required then [("required", .array [.string name])] else [])

def schema : Builtin → Json
  | .echo => oneProperty "text" "string" "Text to echo back" false
  | .calculator =>
    oneProperty "expression" "string" "Expression to evaluate, e.g. '(2 + 3) * 4'" true
  | .fileRead _ => oneProperty "path" "string" "The file path to read" true
  | .currentTime =>
    oneProperty "utc_offset_hours" "integer" "Offset from UTC in hours, between -12 and 14" false

def wrap (args : Json) : String := (Json.ofFields [("echo", args)]).text

def calculate (args : Json) : Except ToolError String :=
  match (args.member "expression").string? with
  | none => .error (.invalidArguments "missing 'expression' argument")
  | some e =>
    match Calculator.evaluate e with
    | .ok x => .ok (Json.ofFields [("expression", .string e), ("result", .number (.float x))]).text
    | .error fault => .error (.executionFailed "calculator" fault.message)

def denied (reason : String) : ToolError := .permissionDenied "file_read" reason

def failed (reason : String) : ToolError := .executionFailed "file_read" reason

def failedToRead (path : String) (e : FileError) : ToolError :=
  failed ("failed to read " ++ path ++ ": " ++ e.message)

/-- The path to open for a request. Inside a working directory it is the place itself, free of
links, and it must lie below the directory's own place. -/
def locate (files : FileTree) (workingDir : Option String) (requested : String) :
    Except ToolError String :=
  if Path.climbs requested then
    .error (denied ("'" ++ requested ++ "' escapes the working directory"))
  else match workingDir with
    | none => .ok requested
    | some dir =>
      match files.resolve dir with
      | .error e => .error (failed ("working directory " ++ dir ++ ": " ++ e.message))
      | .ok root =>
        let joined := Path.join (FileTree.pathOf root) requested
        match files.resolve joined with
        | .error e => .error (failedToRead joined e)
        | .ok target =>
          if root.isPrefixOf target then .ok (FileTree.pathOf target)
          else .error (denied ("'" ++ requested ++ "' is outside " ++ FileTree.pathOf root))

/-- How many bytes are read of a file: one more than are shown, if there can be one more. -/
def readLimit (maxBytes : Nat) : Nat := min (maxBytes + 1) (UInt64.size - 1)

/-- What is told of a file. Its length is known without reading it. -/
def shown (maxBytes : Nat) (requested : String) (bytes : List UInt8) : String :=
  let start := bytes.take (readLimit maxBytes)
  (Json.ofFields [("path", .string requested),
    ("content", .string (Text.Utf8.decodeLossy (start.take maxBytes))),
    ("bytes", .ofNat bytes.length), ("truncated", .bool (maxBytes < start.length))]).text

def readFile (files : FileTree) (maxBytes : Nat) (workingDir : Option String) (args : Json) :
    Except ToolError String :=
  match (args.member "path").string?.filter (!·.isEmpty) with
  | none => .error (.invalidArguments "missing 'path' argument")
  | some requested => do
    let path ← locate files workingDir requested
    match files.read path with
    | .error e => .error (failedToRead path e)
    | .ok bytes => .ok (shown maxBytes requested bytes)

def tellTime (now : Instant) (args : Json) : Except ToolError String := do
  let hours : Int ← match args.member "utc_offset_hours" with
    | .null => .ok 0
    | .number (.int n) =>
      if n ≤ Int64.maxValue.toInt then .ok n
      else .error (.invalidArguments "'utc_offset_hours' must be an integer")
    | _ => .error (.invalidArguments "'utc_offset_hours' must be an integer")
  if -12 ≤ hours ∧ hours ≤ 14 then
    .ok (Json.ofFields [("iso8601", .string (now.textAt hours)),
      ("unix", .number (.int now.unix)), ("utc_offset_hours", .number (.int hours))]).text
  else .error (.invalidArguments ("utc offset " ++ toString hours ++ "h is out of range"))

def execute (files : FileTree) (now : Instant) (ctx : ToolContext) (arguments : String)
    (tool : Builtin) : Except ToolError String := do
  let args ← parseArguments arguments
  match tool with
  | .echo => .ok (wrap args)
  | .calculator => calculate args
  | .fileRead maxBytes => readFile files maxBytes ctx.workingDir args
  | .currentTime => tellTime now args

def definition (t : Builtin) : ToolDefinition := ⟨t.name, t.description, t.schema⟩

end Builtin
end ReasonAct
