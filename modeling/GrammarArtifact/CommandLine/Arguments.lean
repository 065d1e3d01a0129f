import GrammarArtifact.Text.Words

/-!
# Arguments

The command line consists of options. Two options take a value and the others are
flags. Of an option that is given more than once the last one counts.
-/

namespace GrammarArtifact.CommandLine

/-- The options. -/
inductive Choice
  | grammar
  | name
  | search
  | json
  | verbose
deriving DecidableEq, Repr

namespace Choice

/-- All options. -/
def all : List Choice := [.grammar, .name, .search, .json, .verbose]

/-- The long name of an option. -/
def longName : Choice → String
  | .grammar => "grammar"
  | .name => "name"
  | .search => "search"
  | .json => "json"
  | .verbose => "verbose"

/-- The short name of an option. -/
def shortName : Choice → String
  | .grammar => "g"
  | .name => "n"
  | .search => "s"
  | .json => "j"
  | .verbose => "v"

/-- Whether an option takes a value. -/
def takesValue : Choice → Bool
  | .grammar | .name => true
  | .search | .json | .verbose => false

/-- The option with a long name, however its words are written. -/
def ofLongName? [Text.Unicode] (name : String) : Option Choice :=
  all.find? (·.longName == Text.underscored name)

/-- The option with a short name. -/
def ofShortName? (name : String) : Option Choice := all.find? (·.shortName == name)

end Choice

/-- What the arguments ask for. -/
structure Arguments where
  grammar : Option String := none
  name : Option String := none
  search : Bool := false
  json : Bool := false
  verbose : Bool := false
deriving DecidableEq, Repr

/-- Why arguments are not understood. -/
inductive ArgumentFault
  | unknown (argument : String)
  | unexpected (argument : String)
  | valueMissing (choice : Choice)
  | empty
deriving DecidableEq, Repr

/-- The wording of a fault. -/
def ArgumentFault.message : ArgumentFault → String
  | .unknown argument => s!"unknown option: {argument}"
  | .unexpected argument => s!"unexpected argument: {argument}"
  | .valueMissing choice => s!"option without a value: --{choice.longName}"
  | .empty => "empty argument"

/-- A single argument. -/
inductive Argument
  | option (choice : Choice) (value : Option String)
  | unknown
  | divider
  | plain
  | empty

namespace Argument

variable [Text.Unicode]

/-- The part of a text before the first equals sign, and the part after it if there is
an equals sign. -/
def splitValue (text : List Char) : String × Option String :=
  let before := text.takeWhile (· ≠ '=')
  match text.dropWhile (· ≠ '=') with
  | [] => (String.ofList before, none)
  | _ :: value => (String.ofList before, some (String.ofList value))

/-- An option that is looked up by what stands before the equals sign. -/
def ofOption (lookUp : String → Option Choice) (text : List Char) : Argument :=
  let (name, value) := splitValue text
  (lookUp name).elim .unknown (.option · value)

/-- What an argument is: a long option after two hyphens, a short one after a single
hyphen, the divider if there are only two hyphens, and plain otherwise unless there is
nothing at all. -/
def ofText (text : String) : Argument :=
  match text.toList with
  | [] => .empty
  | ['-', '-'] => .divider
  | '-' :: '-' :: long => ofOption Choice.ofLongName? long
  | '-' :: short => ofOption Choice.ofShortName? short
  | _ => .plain

end Argument

namespace Arguments

variable [Text.Unicode]

/-- Set an option that takes a value. Flags stay as they are. -/
def withValue (given : Arguments) (value : String) : Choice → Arguments
  | .grammar => { given with grammar := some value }
  | .name => { given with name := some value }
  | _ => given

/-- Raise a flag. Options that take a value stay as they are. -/
def withFlag (given : Arguments) : Choice → Arguments
  | .search => { given with search := true }
  | .json => { given with json := true }
  | .verbose => { given with verbose := true }
  | _ => given

/-- Read arguments after some have been read. A value stands in the same argument
after an equals sign, or else it is the next argument, whatever that looks like.
Flags are raised whatever follows the equals sign. -/
def readFrom (given : Arguments) : List String → Except ArgumentFault Arguments
  | [] => .ok given
  | argument :: rest =>
    match Argument.ofText argument with
    | .empty => .error .empty
    | .plain => .error (.unexpected argument)
    | .unknown => .error (.unknown argument)
    | .divider =>
      match rest with
      | [] => .ok given
      | extra :: _ => .error (.unexpected extra)
    | .option choice value =>
      if choice.takesValue then
        match value, rest with
        | some value, rest => readFrom (given.withValue value choice) rest
        | none, value :: rest => readFrom (given.withValue value choice) rest
        | none, [] => .error (.valueMissing choice)
      else readFrom (given.withFlag choice) rest

/-- Read all arguments. -/
def read (arguments : List String) : Except ArgumentFault Arguments := readFrom {} arguments

end Arguments

end GrammarArtifact.CommandLine
