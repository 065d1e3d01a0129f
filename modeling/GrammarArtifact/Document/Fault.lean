import GrammarArtifact.Document.Number
import GrammarArtifact.Rule
import GrammarArtifact.Text.Quoted

/-!
# Faults of documents

A document is read in one pass from left to right, and the first fault met ends the
reading. A fault says what was wrong; `Fault.message` puts it into words.
-/

namespace GrammarArtifact.Document

/-- What a document was in the middle of when it ended. -/
inductive Place
  | value
  | object
  | list
  | string
deriving DecidableEq, Repr

namespace Place

/-- The name of a place in messages. -/
def name : Place → String
  | .value => "a value"
  | .object => "an object"
  | .list => "a list"
  | .string => "a string"

end Place

/-- A value that stood where one of another type was wanted. -/
inductive Found
  | null
  | boolean (value : Bool)
  | number (value : Number)
  | string (text : String)
  | sequence
  | map
deriving DecidableEq, Repr

namespace Found

/-- The description of a value in messages. -/
def description [Text.Unicode] : Found → String
  | .null => "null"
  | .boolean value => s!"boolean `{value}`"
  | .number (.integer value) => s!"integer `{value}`"
  | .number value => s!"floating point `{value.toText}`"
  | .string text => "string " ++ Text.Quoted.encode text
  | .sequence => "sequence"
  | .map => "map"

end Found

/-- The type of value that is wanted. -/
inductive Wanted
  | string
  | boolean
  | sequence
  | map
  | unit
  | record (name : String)
deriving DecidableEq, Repr

namespace Wanted

/-- The name of a wanted type in messages. -/
def description : Wanted → String
  | .string => "a string"
  | .boolean => "a boolean"
  | .sequence => "a sequence"
  | .map => "a map"
  | .unit => "unit"
  | .record name => "struct " ++ name

end Wanted

/-- The ways in which a document can fail to be what it should be. -/
inductive Fault
  | ended (place : Place)
  | valueExpected
  | wordExpected
  | colonExpected
  | objectEndExpected
  | listEndExpected
  | trailingComma
  | trailingText
  | keyExpected
  | numberMalformed
  | numberTooLarge
  | escapeMalformed
  | controlCharacter
  | surrogateUnpaired
  | surrogateCut
  | tooDeep
  | wrongType (found : Found) (wanted : Wanted)
  | valueFormUnknown
  | kindUnknown (name : String)
  | keyMissing (name : String)
  | keyRepeated (name : String)
  | tooShort (length : Nat) (record : String) (size : Nat)
deriving DecidableEq, Repr

namespace Fault

/-- All kind names as a message lists them. -/
def kindList : String :=
  ", ".intercalate (RuleKind.all.map fun kind => s!"`{kind.tag}`")

variable [Text.Unicode]

/-- The wording of a fault. -/
def message : Fault → String
  | .ended place => "EOF while parsing " ++ place.name
  | .valueExpected => "expected value"
  | .wordExpected => "expected ident"
  | .colonExpected => "expected `:`"
  | .objectEndExpected => "expected `,` or `\x7d`"
  | .listEndExpected => "expected `,` or `]`"
  | .trailingComma => "trailing comma"
  | .trailingText => "trailing characters"
  | .keyExpected => "key must be a string"
  | .numberMalformed => "invalid number"
  | .numberTooLarge => "number out of range"
  | .escapeMalformed => "invalid escape"
  | .controlCharacter =>
    "control character (\\u0000-\\u001F) found while parsing a string"
  | .surrogateUnpaired => "lone leading surrogate in hex escape"
  | .surrogateCut => "unexpected end of hex escape"
  | .tooDeep => "recursion limit exceeded"
  | .wrongType found wanted =>
    s!"invalid type: {found.description}, expected {wanted.description}"
  | .valueFormUnknown => "data did not match any variant of untagged enum RuleValue"
  | .kindUnknown name => s!"unknown variant `{name}`, expected one of {kindList}"
  | .keyMissing name => s!"missing field `{name}`"
  | .keyRepeated name => s!"duplicate field `{name}`"
  | .tooShort length record size =>
    s!"invalid length {length}, expected struct {record} with {size} elements"

/-- The wording of a fault where it is not clear that a document is meant. -/
def report (fault : Fault) : String := "JSON parse error: " ++ fault.message

end Fault

end GrammarArtifact.Document
