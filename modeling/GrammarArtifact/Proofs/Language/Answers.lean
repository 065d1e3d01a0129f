import GrammarArtifact.Language

/-!
# What languages answer

All that can be asked of a language is answered either from a grammar and the table of its
symbols, or from the header of a compiled parser. There is one field for each question. A
header has no more than a version and counts, so everything else has no answer there.
-/

namespace GrammarArtifact.Language

/-- A language answers from a grammar and the table of its symbols. -/
structure AnswersFrom (language : Language) (grammar : Grammar) (table : SymbolTable) : Prop where
  name : language.name = grammar.name
  version? : language.version? = none
  grammar? : language.grammar? = some grammar
  warnings : language.warnings = Validation.warnings grammar
  kindCount : language.kindCount = table.kindCount
  kind? : ∀ id, language.kind? id = table.kind? id
  kindId? : ∀ kind named, language.kindId? kind named = table.kindId? kind named
  fieldCount : language.fieldCount = table.fieldCount
  fieldName? : ∀ id, language.fieldName? id = table.fieldName? id
  fieldId? : ∀ field, language.fieldId? field = table.fieldId? field
  keywords : language.keywords = table.keywords

/-- A language answers from the header of a compiled parser, whose symbols and aliases are all
its kinds. -/
structure AnswersFromHeader (language : Language) (header : ParserHeader) : Prop where
  version? : language.version? = some header.version
  grammar? : language.grammar? = none
  warnings : language.warnings = []
  kindCount : language.kindCount = header.symbols.toNat + header.aliases.toNat
  kind? : ∀ id, language.kind? id = none
  kindId? : ∀ kind named, language.kindId? kind named = none
  fieldCount : language.fieldCount = header.fields.toNat
  fieldName? : ∀ id, language.fieldName? id = none
  fieldId? : ∀ field, language.fieldId? field = none
  keywords : language.keywords = []

theorem declarative_answersFrom (grammar : Grammar) (table : SymbolTable) :
    (declarative grammar table (Validation.warnings grammar)).AnswersFrom grammar table where
  name := rfl
  version? := rfl
  grammar? := rfl
  warnings := rfl
  kindCount := rfl
  kind? _ := rfl
  kindId? _ _ := rfl
  fieldCount := rfl
  fieldName? _ := rfl
  fieldId? _ := rfl
  keywords := rfl

theorem compiled_answersFromHeader (name : String) (header : ParserHeader) :
    (compiled name header).AnswersFromHeader header where
  version? := rfl
  grammar? := rfl
  warnings := rfl
  kindCount := header.kindCount_eq_add
  kind? _ := rfl
  kindId? _ _ := rfl
  fieldCount := rfl
  fieldName? _ := rfl
  fieldId? _ := rfl
  keywords := rfl

end GrammarArtifact.Language
