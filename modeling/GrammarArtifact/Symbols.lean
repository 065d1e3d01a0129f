import GrammarArtifact.Event
import GrammarArtifact.Matcher
import GrammarArtifact.Symbols.Field
import GrammarArtifact.Symbols.KindTable
import GrammarArtifact.Symbols.Word

/-!
# Symbol tables

A symbol table numbers the node kinds and the fields of a grammar. Node kinds are
numbered from zero and fields from one, because the field with number zero is no
field. All numbers have sixteen bits, so a grammar with too many kinds or fields has
no table.
-/

namespace GrammarArtifact

/-- The node kinds, fields and keywords of a grammar. -/
structure SymbolTable extends KindTable where
  fields : Array String
  keywords : List String
  fields_fit : fields.size < UInt16.size

namespace SymbolTable

/-- The number of fields. -/
def fieldCount (table : SymbolTable) : Nat := table.fields.size

/-- The field with a number. -/
def fieldName? (table : SymbolTable) (id : UInt16) : Option String :=
  if id = 0 then none else table.fields[id.toNat - 1]?

/-- The number of the field with a name, if it is a number of sixteen bits. -/
def fieldId? (table : SymbolTable) (name : String) : Option UInt16 :=
  (Text.placeIn? table.fields name).bind fun place =>
    if room : place + 1 < UInt16.size then some (UInt16.ofNatLT (place + 1) room) else none

/-- The literal tokens among node kinds in whose names an expression is found. -/
def keywordsAmong (kinds : List NodeKind) (isFoundIn : List Char → Bool) : List String :=
  (kinds.filter fun kind =>
    !kind.named && kind.visible && isFoundIn kind.name.toList).map (·.name)

variable [Matcher]

/-- The keywords of a grammar, given its node kinds. There are none when no pattern
of words is found, nor when it is found and cannot be compiled, which is told as an
event. -/
def keywordsOf (grammar : Grammar) (kinds : List NodeKind) : Logged (List String) :=
  match grammar.wordPattern? with
  | none => pure []
  | some pattern =>
    match Matcher.compile? (wholeWord pattern) with
    | some isFoundIn => pure (keywordsAmong kinds isFoundIn)
    | none => do
      Logged.note {
        level := .warn
        topic := .symbols
        message := "word pattern is not a valid regex; no keywords extracted"
        fields := [("grammar", .text grammar.name)]
        unkept := ["err"] }
      return []

/-- The symbol table of a grammar, if the numbers suffice. -/
def ofGrammar? (grammar : Grammar) : Logged (Option SymbolTable) :=
  match KindTable.empty.pushAll? (NodeKind.contributions grammar) with
  | none => pure none
  | some table =>
    let fields := grammar.fieldNames
    if fit : fields.length < UInt16.size then do
      let keywords ← keywordsOf grammar table.kinds.toList
      return some { table with fields := fields.toArray, keywords, fields_fit := fit }
    else pure none

end SymbolTable

end GrammarArtifact
