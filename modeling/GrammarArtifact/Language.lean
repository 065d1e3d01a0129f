import GrammarArtifact.Document.Grammar
import GrammarArtifact.Loading.Failure
import GrammarArtifact.Symbols
import GrammarArtifact.Validation

/-!
# Languages

A language is a grammar that is fit for use. Either it comes from a grammar that is
well formed and whose symbols have been numbered, or it is a compiled parser, of
which only the header is known.
-/

namespace GrammarArtifact

/-- A language that has been loaded. -/
inductive Language
  | declarative (grammar : Grammar) (symbols : SymbolTable)
      (warnings : List Validation.Warning)
  | compiled (name : String) (header : ParserHeader)

namespace Language

/-- The name of a language. -/
def name : Language → String
  | .declarative grammar _ _ => grammar.name
  | .compiled name _ => name

/-- The interface version of a compiled parser. -/
def version? : Language → Option UInt32
  | .declarative .. => none
  | .compiled _ header => some header.version

/-- The grammar that a language comes from. -/
def grammar? : Language → Option Grammar
  | .declarative grammar _ _ => some grammar
  | .compiled .. => none

/-- The numbered symbols of a language. Compiled parsers keep theirs to themselves. -/
def symbols? : Language → Option SymbolTable
  | .declarative _ symbols _ => some symbols
  | .compiled .. => none

/-- The warnings that came up while a language was loaded. -/
def warnings : Language → List Validation.Warning
  | .declarative _ _ warnings => warnings
  | .compiled .. => []

/-- The number of node kinds of a language. -/
def kindCount : Language → Nat
  | .declarative _ symbols _ => symbols.kindCount
  | .compiled _ header => header.kindCount

/-- The number of fields of a language. -/
def fieldCount : Language → Nat
  | .declarative _ symbols _ => symbols.fieldCount
  | .compiled _ header => header.fields.toNat

/-- The keywords of a language. -/
def keywords (language : Language) : List String := language.symbols?.elim [] (·.keywords)

/-- The node kind with a number. -/
def kind? (language : Language) (id : UInt16) : Option NodeKind :=
  language.symbols?.bind (·.kind? id)

/-- The number of the node kind with a name. -/
def kindId? (language : Language) (name : String) (named : Bool) : Option UInt16 :=
  language.symbols?.bind (·.kindId? name named)

/-- The field with a number. -/
def fieldName? (language : Language) (id : UInt16) : Option String :=
  language.symbols?.bind (·.fieldName? id)

/-- The number of the field with a name. -/
def fieldId? (language : Language) (name : String) : Option UInt16 :=
  language.symbols?.bind (·.fieldId? name)

/-- A language at a glance: its name, version and counts. -/
def summary [Text.Unicode] (language : Language) : String :=
  let version := language.version?.elim "None" fun version => s!"Some({version.toNat})"
  s!"Language \x7b name: {Text.Quoted.encode language.name}, abi_version: {version}, " ++
    s!"node_kind_count: {language.kindCount}, field_count: {language.fieldCount}, .. \x7d"

variable [Matcher]

/-- The language of a grammar: the grammar has to be well formed, and its symbols must
not be too many to be numbered. -/
def ofGrammar (grammar : Grammar) : Logged (Except LoadFailure Language) := do
  match ← grammar.validate with
  | .error fault => return .error (.invalid fault)
  | .ok warnings =>
    match ← SymbolTable.ofGrammar? grammar with
    | none => return .error .tooManySymbols
    | some symbols =>
      Logged.note {
        level := .debug
        topic := .language
        message := "loaded declarative grammar"
        fields := [("grammar", .text grammar.name), ("node_kinds", .number symbols.kindCount),
          ("fields", .number symbols.fieldCount)] }
      return .ok (.declarative grammar symbols warnings)

/-- The language that an artifact describes: the artifact has to be a grammar document
that declares the expected name. -/
def ofText (expected text : String) : Logged (Except LoadFailure Language) :=
  match Document.readGrammar text with
  | .error fault => pure (.error (.malformed fault))
  | .ok grammar =>
    if grammar.name = expected then ofGrammar grammar
    else pure (.error (.nameMismatch expected grammar.name))

end Language

end GrammarArtifact
