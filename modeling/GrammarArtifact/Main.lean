import GrammarArtifact.CommandLine

/-!
# The program

Looks at the surroundings, runs the command line on them, and writes what it says.
-/

namespace GrammarArtifact.Main

open CommandLine

/-- The number and the wording that came with an error of the system. -/
def reported : IO.Error → Option (UInt32 × String)
  | .alreadyExists _ code details | .noFileOrDirectory _ code details
  | .interrupted _ code details | .resourceExhausted _ code details
  | .inappropriateType _ code details | .invalidArgument _ code details
  | .permissionDenied _ code details | .noSuchThing _ code details
  | .otherError code details | .resourceBusy code details | .resourceVanished code details
  | .unsupportedOperation code details | .hardwareFault code details
  | .unsatisfiedConstraints code details | .illegalOperation code details
  | .protocolError code details | .timeExpired code details => some (code, details)
  | .unexpectedEof | .userError _ => none

/-- The number and the wording that the system has for an error. Some errors come with
the number negated. -/
def systemError (error : IO.Error) : Option (UInt32 × String) :=
  (reported error).map fun (number, wording) =>
    (if number < 0x80000000 then number else 0 - number, wording.capitalize)

/-- Why a file could not be read, by the error that was met. -/
def readFault (error : IO.Error) : ReadFault :=
  match systemError error with
  | some (2, _) => .missing
  | some (20, _) => .notDirectory
  | some (21, _) => .isDirectory
  | some (36, _) => .nameTooLong
  | some (number, wording) => .other s!"{wording} (os error {number.toNat})"
  | none => .other (toString error)

/-- What is said of every shared library, for none can be opened here. -/
def unopened : String := "shared libraries cannot be opened"

/-- What there is at a path. -/
def observe (path : String) : IO Sight := do
  match ← (IO.FS.readBinFile path).toBaseIO with
  | .ok data =>
    let text := (String.fromUTF8? data).elim (.error .notUtf8) .ok
    return { isPresent := true, isFile := true, text, library := .error unopened }
  | .error error =>
    let fault := readFault error
    let absent := [ReadFault.missing, .notDirectory, .nameTooLong].contains fault
    return {
      isPresent := !absent
      isFile := !absent && fault ≠ .isDirectory
      text := .error fault
      library := .error unopened }

/-- The file system as far as some paths are concerned. -/
def observeAll (paths : List String) : IO FileSystem := do
  let seen ← paths.mapM fun path => return (path, ← observe path)
  let absent : Sight :=
    { isPresent := false, isFile := false, text := .error .missing, library := .error unopened }
  return fun path => (seen.lookup path).getD absent

/-- The surroundings of the program. -/
def surroundings : IO Environment := do
  return {
    searchPath := ← IO.getEnv "SAKURAE_GRAMMAR_PATH"
    home := ← IO.getEnv "HOME"
    configHome := ← IO.getEnv "XDG_CONFIG_HOME"
    dataHome := ← IO.getEnv "XDG_DATA_HOME"
    programDirectory := some (toString (← IO.appDir)) }

/-- The line of an event in the log. -/
def logLine (event : Event) : String :=
  let value : EventValue → String
    | .text text => text
    | .number number => toString number
    | .flag flag => toString flag
  let fields := event.fields.map fun field => s!" {field.1}={value field.2}"
  s!"{event.level.name} {target event.topic}: {event.message}" ++ String.join fields

end GrammarArtifact.Main

open GrammarArtifact GrammarArtifact.Main in
def main (arguments : List String) : IO UInt32 := do
  let environment ← surroundings
  let setting ← IO.getEnv "SAKURAE_LOG"
  let paths := match CommandLine.Arguments.read arguments with
    | .ok read => (CommandLine.entryPoint environment read).paths
    | .error _ => []
  let outcome := CommandLine.run environment setting (← observeAll paths) arguments
  for event in outcome.log do
    IO.eprintln (logLine event)
  IO.print outcome.output
  IO.eprint outcome.complaint
  return outcome.code.toUInt32
