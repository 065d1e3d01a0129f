import GrammarArtifact.Loading.Handle
import GrammarArtifact.Loading.Location

/-!
# Loading compiled parsers

A compiled parser comes from a function that returns its header. The function is
either at hand or made available by a shared library. Every parser that is rejected
is told of by one warning event.
-/

namespace GrammarArtifact.Compiled

/-- The handle for what a function returned. Nothing gives no reason, and a header is
accepted when its version is. -/
def inspect (grammar : String) (accepted : VersionRange) (returned : Option ParserHeader) :
    Logged Handle := do
  match returned with
  | none =>
    Logged.note {
      level := .warn
      topic := .parser
      message := "language function returned null"
      fields := [("grammar", .text grammar)] }
    return .invalid none
  | some header =>
    let version := ("abi_version", EventValue.number header.version.toNat)
    if accepted.contains header.version then
      Logged.note {
        level := .debug
        topic := .parser
        message := "loaded native parser"
        fields := [("grammar", .text grammar), version,
          ("symbols", .number header.symbols.toNat)] }
      return .valid (.compiled grammar header)
    else
      Logged.note {
        level := .warn
        topic := .parser
        message := "incompatible parser ABI"
        fields := [("grammar", .text grammar), version] }
      return .invalid (some (.versionMismatch header.version accepted))

/-- The name of the file that holds the compiled parser of a grammar. -/
def fileName (grammar : String) : String := grammar ++ ".so"

/-- What the function for a grammar returns, of the library at a location. -/
def call (files : FileSystem) (grammar : String) (location : Location) :
    Logged (Except LoadFailure (Option ParserHeader)) := do
  match ← location.resolve files (fileName grammar) with
  | .error failure => return .error failure
  | .ok path =>
    let sight := files path
    if sight.isPresent then
      let function := Library.functionName grammar
      Logged.note {
        level := .debug
        topic := .parser
        message := "opening grammar library"
        fields := [("grammar", .text grammar), ("path", .text path),
          ("symbol", .text function)] }
      match sight.library with
      | .error reason => return .error (.notALibrary reason)
      | .ok library =>
        match library.function? function with
        | none => return .error (.missingFunction function)
        | some returned => return .ok returned
    else return .error (.notFound path)

/-- The handle for the compiled parser of a grammar in the library at a location. -/
def handle [Text.Unicode] (files : FileSystem) (grammar : String) (location : Location) :
    Logged Handle := do
  match ← call files grammar location with
  | .ok returned => inspect grammar location.versions returned
  | .error failure =>
    Logged.note {
      level := .warn
      topic := .parser
      message := "grammar library rejected"
      fields := [("grammar", .text grammar), ("err", .text failure.message)] }
    return .invalid (some failure)

end GrammarArtifact.Compiled
