/-
UpfPolicy.Cli.Main — the command line (`src/cli/main.cpp`).

The arguments are those behind the name of the program. What is written to
the two streams is collected in the exit. Turning a document into text
(`dump`) belongs to the JSON library.
-/
import UpfPolicy.Adapters.HumanOutput
import UpfPolicy.Adapters.JsonInput
import UpfPolicy.Application.ScenarioRunner

namespace UpfPolicy

open Support

namespace CommandLine

structure Exit where
  code : UInt32
  out : String := ""
  err : String := ""
  deriving DecidableEq

def usage : Exit where
  code := 2
  err := "Usage: upf-rule-pipeline-demo --scenario NAME [--output human|json]\n"
    ++ "       upf-rule-pipeline-demo --rules FILE --packets FILE [--output human|json]\n"

def help : Exit where
  code := 0
  out := disclaimer ++ "\nUsage: upf-rule-pipeline-demo --scenario NAME [--output human|json]\n"

def listing : Exit where
  code := 0
  out := String.join (ScenarioRunner.scenarioNames.map (· ++ "\n")) ++ disclaimer ++ "\n"

/-! ## Arguments -/

structure Options where
  scenario : String := ""
  rules : String := ""
  packets : String := ""
  output : String := "human"
  list : Bool := false
  deriving DecidableEq

def takesValue (arg : String) : Bool :=
  arg == "--scenario" || arg == "--rules" || arg == "--packets" || arg == "--output"

def Options.assign (options : Options) (arg value : String) : Options :=
  if arg = "--scenario" then { options with scenario := value }
  else if arg = "--rules" then { options with rules := value }
  else if arg = "--packets" then { options with packets := value }
  else { options with output := value }

/-- The loop over the arguments. A `return` from inside it is an error. -/
def parseArgs (options : Options) : List String → Except Exit Options
  | [] => .ok options
  | arg :: rest =>
    if arg = "--help" then .error help
    else if arg = "--list-scenarios" then parseArgs { options with list := true } rest
    else if takesValue arg then
      match rest with
      | value :: rest => parseArgs (options.assign arg value) rest
      | [] => .error usage
    else .error usage

/-! ## The program -/

section Program

variable [InetText] [InetPton] [FloatCast] [ArgumentOrder]

omit [InetPton] [FloatCast] [ArgumentOrder] in
/-- The last statements of `main`. -/
def report (dump : Json → String) (output : String) (result : RunResult) : Exit where
  code := 0
  out := if output = "json" then dump (renderJson result) ++ "\n" else renderHuman result

/-- The statements of `main` behind the loop. -/
def dispatch (indeterminate : Option UInt64) (dump : Json → String)
    (files : String → FileContent) (options : Options) : Outcome Exit :=
  if options.list then .value listing
  else if options.output ≠ "human" ∧ options.output ≠ "json" then .value usage
  else if options.scenario ≠ "" ∧ options.rules = "" ∧ options.packets = "" then
    if options.scenario ∈ ScenarioRunner.scenarioNames then
      report dump options.output <$> ScenarioRunner.run indeterminate options.scenario
    else .value usage
  else if options.scenario = "" ∧ options.rules ≠ "" ∧ options.packets ≠ "" then do
    match ← (runFiles files options.rules options.packets).result with
    | .error e => return { code := 4, err := e ++ "\n" }
    | .ok result => return report dump options.output result
  else .value usage

def main (indeterminate : Option UInt64) (dump : Json → String) (files : String → FileContent)
    (args : List String) : Outcome Exit :=
  match parseArgs {} args with
  | .error exit => .value exit
  | .ok options => dispatch indeterminate dump files options

end Program

end CommandLine

end UpfPolicy
