import GrammarArtifact.CommandLine.Arguments
import GrammarArtifact.CommandLine.LogFilter
import GrammarArtifact.CommandLine.Report
import GrammarArtifact.Loading
import GrammarArtifact.Pattern.Engine
import GrammarArtifact.Text.Tables

/-!
# The command line

The program checks that a grammar can be loaded and says so. It does nothing else, so
what it writes is a function of its arguments and surroundings.
-/

namespace GrammarArtifact.CommandLine

/-- What a run of the program leaves behind: its exit code, what it writes to the
standard output, what it complains about, and the events that it writes to the log. -/
structure Outcome where
  code : UInt8
  output : String := ""
  complaint : String := ""
  log : List Event := []
deriving DecidableEq, Repr

/-- A run that is broken off before anything is loaded. -/
def Outcome.broken (reason : String) : Outcome := { code := 101, complaint := reason ++ "\n" }

variable [Text.Unicode] [Matcher]

/-- The entry point that the arguments ask for. The shipped artifact is the one for
every name, so that any name but its own is refused. -/
def entryPoint (environment : Environment) (arguments : Arguments) : EntryPoint :=
  let name := arguments.name.getD Shipped.name
  match arguments.grammar with
  | some path => .artifact name (.given path)
  | none =>
    if arguments.search then .artifact name (.search (.ofEnvironment environment))
    else if name = Shipped.name then .shipped
    else .custom name do return .ofExcept (← Language.ofText name Shipped.text)

/-- What is written about a language that has been loaded. -/
def description (language : Language) : String :=
  let counts := s!"{language.kindCount} node kinds, {language.fieldCount} fields, " ++
    s!"{language.keywords.length} keywords"
  let warnings := language.warnings.map fun warning => s!"warning: {warning.message}\n"
  s!"{language.name}: ok ({counts})\n" ++ String.join warnings

/-- A run with arguments that have been understood. -/
def load (environment : Environment) (setting : Option String) (files : FileSystem)
    (arguments : Arguments) : Outcome :=
  match LogFilter.ofSetting? setting arguments.verbose with
  | none => .broken "log filter cut inside a character"
  | some filter =>
    let loaded := (entryPoint environment arguments).loadChecked files
    let log := loaded.events.filter filter.allows
    let report := (Report.ofResult loaded.value).line ++ "\n"
    match loaded.value with
    | .ok language =>
      { code := 0, output := if arguments.json then report else description language, log }
    | .error error =>
      if arguments.json then { code := 1, output := report, log }
      else { code := 1, complaint := error.chain ++ "\n", log }

/-- A run of the program. -/
def run (environment : Environment) (setting : Option String) (files : FileSystem)
    (arguments : List String) : Outcome :=
  match Arguments.read arguments with
  | .error .empty => .broken ArgumentFault.empty.message
  | .error fault => { code := 2, complaint := fault.message ++ "\n" }
  | .ok arguments => load environment setting files arguments

end GrammarArtifact.CommandLine
