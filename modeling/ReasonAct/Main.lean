import ReasonAct.CommandLine.Report
set_option autoImplicit false

namespace ReasonAct.Program

def usage : String := "Usage: [OPTIONS] <COMMAND>

Commands:
  demo      Run a scripted agent session and print its transcript
  tools     List built-in tools and the schema sent to the model
  config    Show, validate or locate the configuration

Options:
  -c, --config <CONFIG>  Read configuration from this file
  -v, --verbose          Enable verbose logging
  -h, --help             Print help
  -V, --version          Print version"

def version : String := "0.1.0"

def find (path : String) : IO Config.Found := do
  match ← (IO.FS.readBinFile path).toBaseIO with
  | .error (.noFileOrDirectory _ _ _) => pure .missing
  | .error e => pure (.failed (toString e))
  | .ok bytes =>
    match Text.Utf8.decode? bytes.toList with
    | some s => pure (.text s)
    | none => pure (.failed "stream did not contain valid UTF-8")

def environment : IO (List (String × String)) := do
  let names := [Config.homeVariable, Config.iterationsVariable, Config.timeoutVariable,
    Config.workingDirVariable]
  names.filterMapM fun name => do pure ((← IO.getEnv name).map fun v => (name, v))

def run (args : List String) : IO UInt32 := do
  match CommandLine.parse args with
  | .error .misused => IO.eprintln usage; pure 2
  | .error .help => IO.println usage; pure 0
  | .error .version => IO.println version; pure 0
  | .ok invocation =>
    let vars ← environment
    let lookup := fun name => vars.lookup name
    let report := invocation.report (← find (invocation.path lookup)) lookup
    IO.print report.stdout
    IO.eprint report.stderr
    pure (if report.failure.isSome then 1 else 0)

end ReasonAct.Program

def main (args : List String) : IO UInt32 := ReasonAct.Program.run args
