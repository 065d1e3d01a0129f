import GrammarArtifact.Pattern.Engine
import GrammarArtifact.Proofs.Language.Gates
import GrammarArtifact.Proofs.Table
import GrammarArtifact.Proofs.Validation.Violations
import GrammarArtifact.Rule.Build
import GrammarArtifact.Text.Tables

/-!
# Loading under different enumerations of the reserved words

The sets of reserved words have names but no order of their own. Whoever goes through
them does so in some enumeration, and two loads of one artifact may use different
ones. Acceptance and warnings never depend on it, and neither do the symbols of a
language. What may depend on it is which fault is told when reserved words alone are
at fault: the first set that has a violation decides. Loads agree under all
enumerations exactly when something else is at fault first, or all sets with
violations begin with the same one.
-/

namespace GrammarArtifact

/-- A way to go through sets of reserved words: some order of any table of them. -/
structure Enumeration where
  order : Table (List Rule) → Table (List Rule)
  perm : ∀ words, (order words).entries.Perm words.entries

namespace Enumeration

/-- The order in which the sets are written. -/
def written : Enumeration := ⟨id, fun words => .refl words.entries⟩

/-- The written order, except that one set comes first. -/
def leading (entry : String × List Rule) : Enumeration where
  order words :=
    if bound : entry ∈ words.entries then
      ⟨entry :: words.entries.erase entry,
        ((List.perm_cons_erase bound).map Prod.fst).nodup_iff.mp words.distinct⟩
    else words
  perm words := by
    split
    · next bound => exact (List.perm_cons_erase bound).symm
    · exact .refl _

end Enumeration

/-- The grammar with its reserved words in the order of an enumeration. -/
def Grammar.enumerated (grammar : Grammar) (enumeration : Enumeration) : Grammar :=
  { grammar with reserved := enumeration.order grammar.reserved }

namespace Language

/-- The language that an artifact describes, when its reserved words are gone through
in the order of an enumeration. -/
def ofTextIn [Matcher] (enumeration : Enumeration) (expected text : String) :
    Logged (Except LoadFailure Language) :=
  match Document.readGrammar text with
  | .error fault => pure (.error (.malformed fault))
  | .ok grammar =>
    if grammar.name = expected then ofGrammar (grammar.enumerated enumeration)
    else pure (.error (.nameMismatch expected grammar.name))

/-- Loading goes through the reserved words in the order in which they are written. -/
theorem ofTextIn_written [Matcher] (expected text : String) :
    ofTextIn .written expected text = ofText expected text := rfl

/-- Two languages give the same answers. The symbols decide all questions about kinds,
fields and keywords, and grammars are compared without the order of their tables. -/
structure Alike (left right : Language) : Prop where
  name : left.name = right.name
  version : left.version? = right.version?
  symbols : left.symbols? = right.symbols?
  warnings : left.warnings = right.warnings
  kindCount : left.kindCount = right.kindCount
  fieldCount : left.fieldCount = right.fieldCount
  grammar : Option.Rel (fun left right => (left == right) = true) left.grammar? right.grammar?

/-- Two loads end alike: with languages that give the same answers, or with the same
failure. -/
inductive SameOutcome : Except LoadFailure Language → Except LoadFailure Language → Prop
  | loaded {left right : Language} (alike : left.Alike right) :
      SameOutcome (.ok left) (.ok right)
  | failed (failure : LoadFailure) : SameOutcome (.error failure) (.error failure)

end Language

namespace Validation

/-- Whatever is told first is told under every enumeration: something outside the
reserved words is at fault, or no two sets begin with different violations. -/
def OrderFree (grammar : Grammar) : Prop :=
  fixedViolations grammar ≠ [] ∨
    ∀ one ∈ grammar.reserved.values, ∀ other ∈ grammar.reserved.values,
      ∀ fault fault', (wordViolations grammar one).head? = some fault →
        (wordViolations grammar other).head? = some fault' → fault = fault'

/-- When all elements in which something is found yield the same, the order of the
list does not matter. -/
theorem findSome?_eq_of_perm {α β : Type} {find : α → Option β} {left right : List α}
    (perm : left.Perm right)
    (agree : ∀ one ∈ left, ∀ other ∈ left, ∀ found found',
      find one = some found → find other = some found' → found = found') :
    left.findSome? find = right.findSome? find := by
  cases onLeft : left.findSome? find with
  | none =>
    symm
    rw [List.findSome?_eq_none_iff] at onLeft ⊢
    intro element member
    exact onLeft element (perm.mem_iff.mpr member)
  | some found =>
    obtain ⟨one, inLeft, here⟩ := List.exists_of_findSome?_eq_some onLeft
    have somewhere : (right.findSome? find).isSome := by
      rw [List.findSome?_isSome_iff]
      exact ⟨one, perm.mem_iff.mp inLeft, by simp [here]⟩
    obtain ⟨found', onRight⟩ := Option.isSome_iff_exists.mp somewhere
    obtain ⟨other, inRight, there⟩ := List.exists_of_findSome?_eq_some onRight
    rw [onRight, agree one inLeft other (perm.mem_iff.mpr inRight) found found' here there]

/-- An enumeration moves the violations of the reserved words and no others. -/
theorem violations_enumerated (grammar : Grammar) (enumeration : Enumeration) :
    violations (grammar.enumerated enumeration) = fixedViolations grammar ++
      (enumeration.order grammar.reserved).values.flatMap (wordViolations grammar) := rfl

theorem head?_violations_enumerated (grammar : Grammar) (enumeration : Enumeration) :
    (violations (grammar.enumerated enumeration)).head? =
      (fixedViolations grammar).head?.or
        ((enumeration.order grammar.reserved).values.findSome? fun words =>
          (wordViolations grammar words).head?) := by
  rw [violations_enumerated, List.head?_append, List.head?_flatMap]

theorem values_perm (enumeration : Enumeration) (words : Table (List Rule)) :
    (enumeration.order words).values.Perm words.values :=
  (enumeration.perm words).map Prod.snd

/-- A grammar is accepted under all enumerations or under none, and with the same
warnings. -/
theorem validate_enumerated_eq_ok_iff (grammar : Grammar) (enumeration : Enumeration)
    (found : List Warning) :
    (grammar.enumerated enumeration).validate.value = .ok found ↔
      grammar.validate.value = .ok found := by
  have words : (enumeration.order grammar.reserved).values.flatMap (wordViolations grammar) = [] ↔
      grammar.reserved.values.flatMap (wordViolations grammar) = [] := by
    simp only [List.flatMap_eq_nil_iff, (values_perm enumeration grammar.reserved).mem_iff]
  have same : warnings (grammar.enumerated enumeration) = warnings grammar := rfl
  rw [validate_eq_ok_iff, validate_eq_ok_iff, violations_enumerated, same, violations,
    List.append_eq_nil_iff, List.append_eq_nil_iff, words]

/-- When only reserved words are at fault, a set of them that comes first decides. -/
theorem validate_leading (grammar : Grammar) (clean : fixedViolations grammar = [])
    (entry : String × List Rule) (member : entry ∈ grammar.reserved.entries) (fault : Fault)
    (begins : (wordViolations grammar entry.2).head? = some fault) :
    (grammar.enumerated (.leading entry)).validate.value = .error fault := by
  have leads : ((Enumeration.leading entry).order grammar.reserved).values =
      entry.2 :: (grammar.reserved.entries.erase entry).map Prod.snd := by
    simp [Enumeration.leading, member, Table.values]
  rw [validate_eq_error_iff, head?_violations_enumerated, clean, leads, List.findSome?_cons,
    begins]
  rfl

/-- A grammar that is free of order has one first violation. -/
theorem OrderFree.head?_eq {grammar : Grammar} (free : OrderFree grammar)
    (first second : Enumeration) :
    (violations (grammar.enumerated first)).head? =
      (violations (grammar.enumerated second)).head? := by
  rw [head?_violations_enumerated, head?_violations_enumerated]
  rcases free with faulty | agree
  · obtain ⟨fault, rest, begins⟩ := List.exists_cons_of_ne_nil faulty
    simp [begins]
  · have perm := (values_perm first grammar.reserved).trans
      (values_perm second grammar.reserved).symm
    congr 1
    apply findSome?_eq_of_perm perm
    intro one inFirst other inFirst'
    have known := fun words => (values_perm first grammar.reserved).mem_iff (a := words)
    exact agree one ((known one).mp inFirst) other ((known other).mp inFirst')

/-- Validation tells the same under all enumerations exactly when the grammar is free
of order. -/
theorem validate_enumerated_eq_iff_orderFree (grammar : Grammar) :
    (∀ first second : Enumeration, (grammar.enumerated first).validate.value =
      (grammar.enumerated second).validate.value) ↔ OrderFree grammar := by
  constructor
  · intro alike
    by_cases clean : fixedViolations grammar = []
    · right
      intro one inValues other inValues' fault fault' begins begins'
      obtain ⟨entry, member, rfl⟩ := List.mem_map.mp inValues
      obtain ⟨entry', member', rfl⟩ := List.mem_map.mp inValues'
      have same := alike (.leading entry) (.leading entry')
      rw [validate_leading grammar clean entry member fault begins,
        validate_leading grammar clean entry' member' fault' begins'] at same
      exact Except.error.inj same
    · exact .inl clean
  · intro free first second
    have same : warnings (grammar.enumerated first) = warnings (grammar.enumerated second) := rfl
    rw [value_validate, value_validate, free.head?_eq first second, same]

end Validation

/-- Grammars that differ in the enumeration of their reserved words are equal. -/
theorem Grammar.enumerated_beq (grammar : Grammar) (first second : Enumeration) :
    (grammar.enumerated first == grammar.enumerated second) = true := by
  have rules : grammar.rules.sameBindings grammar.rules = true :=
    Table.sameBindings_of_perm (.refl _)
  have reserved : (first.order grammar.reserved).sameBindings
      (second.order grammar.reserved) = true :=
    Table.sameBindings_of_perm ((first.perm grammar.reserved).trans
      (second.perm grammar.reserved).symm)
  show Grammar.beq _ _ = true
  simp [Grammar.beq, Grammar.enumerated, rules, reserved]

namespace Language

open Validation

/-- The way to the pattern of words leads through rules alone. -/
theorem wordPattern?_enumerated (grammar : Grammar) (enumeration : Enumeration) :
    (grammar.enumerated enumeration).wordPattern? = grammar.wordPattern? := by
  have within (remaining : Nat) (node : Rule) :
      (grammar.enumerated enumeration).wordPatternWithin remaining node =
        grammar.wordPatternWithin remaining node := by
    induction remaining generalizing node with
    | zero => rfl
    | succ remaining induction =>
      have step : (grammar.enumerated enumeration).wordStep? node = grammar.wordStep? node := rfl
      simp only [Grammar.wordPatternWithin, step, funext induction]
  have led (name : String) : (grammar.enumerated enumeration).patternFrom? name =
      grammar.patternFrom? name := by
    simp only [Grammar.patternFrom?, funext (within _)]
    rfl
  simp only [Grammar.wordPattern?, funext led]
  rfl

/-- The symbols do not depend on the reserved words. -/
theorem symbols_enumerated [Matcher] (grammar : Grammar) (enumeration : Enumeration) :
    SymbolTable.ofGrammar? (grammar.enumerated enumeration) =
      SymbolTable.ofGrammar? grammar := by
  have kinds : NodeKind.contributions (grammar.enumerated enumeration) =
      NodeKind.contributions grammar := rfl
  have fields : (grammar.enumerated enumeration).fieldNames = grammar.fieldNames := rfl
  have keywords : SymbolTable.keywordsOf (grammar.enumerated enumeration) =
      SymbolTable.keywordsOf grammar := by
    funext kinds
    rw [SymbolTable.keywordsOf, SymbolTable.keywordsOf, wordPattern?_enumerated]
    rfl
  simp only [SymbolTable.ofGrammar?, kinds, fields, keywords]

/-- Two enumerations of a grammar end alike exactly when validation tells the same. -/
theorem sameOutcome_enumerated_iff [Matcher] (grammar : Grammar) (first second : Enumeration) :
    SameOutcome (ofGrammar (grammar.enumerated first)).value
        (ofGrammar (grammar.enumerated second)).value ↔
      (grammar.enumerated first).validate.value = (grammar.enumerated second).validate.value := by
  constructor
  · intro alike
    rw [value_ofGrammar, value_ofGrammar, symbols_enumerated, symbols_enumerated] at alike
    cases onFirst : (grammar.enumerated first).validate.value with
    | ok found =>
      have accepted := (validate_enumerated_eq_ok_iff grammar first found).mp onFirst
      exact ((validate_enumerated_eq_ok_iff grammar second found).mpr accepted).symm
    | error fault =>
      cases onSecond : (grammar.enumerated second).validate.value with
      | ok found =>
        have accepted := (validate_enumerated_eq_ok_iff grammar second found).mp onSecond
        rw [(validate_enumerated_eq_ok_iff grammar first found).mpr accepted] at onFirst
        contradiction
      | error fault' =>
        rw [onFirst, onSecond] at alike
        cases alike
        rfl
  · intro same
    rw [value_ofGrammar, value_ofGrammar, symbols_enumerated, symbols_enumerated, same]
    cases (grammar.enumerated second).validate.value with
    | error fault => exact .failed _
    | ok warnings =>
      cases (SymbolTable.ofGrammar? grammar).value with
      | none => exact .failed _
      | some symbols =>
        refine .loaded ⟨rfl, rfl, rfl, rfl, rfl, rfl, ?_⟩
        exact .some (grammar.enumerated_beq first second)

/-- Two loads of an artifact end alike under all enumerations exactly when the artifact
holds no grammar of the expected name, or one that is free of order. -/
theorem sameOutcome_ofTextIn_iff [Matcher] (expected text : String) :
    (∀ first second : Enumeration,
      SameOutcome (ofTextIn first expected text).value (ofTextIn second expected text).value) ↔
      ∀ grammar, Document.readGrammar text = .ok grammar → grammar.name = expected →
        OrderFree grammar := by
  cases decoded : Document.readGrammar text with
  | error fault =>
    have failed (enumeration : Enumeration) : (ofTextIn enumeration expected text).value =
        .error (.malformed fault) := by
      rw [ofTextIn, decoded]
      rfl
    simp only [failed, reduceCtorEq, false_implies, implies_true, iff_true]
    exact fun _ _ => .failed _
  | ok grammar =>
    by_cases named : grammar.name = expected
    · have loaded (enumeration : Enumeration) : (ofTextIn enumeration expected text).value =
          (ofGrammar (grammar.enumerated enumeration)).value := by
        rw [ofTextIn, decoded]
        simp [named]
      simp only [loaded, sameOutcome_enumerated_iff, validate_enumerated_eq_iff_orderFree,
        Except.ok.injEq, forall_eq', named, true_implies]
    · have failed (enumeration : Enumeration) : (ofTextIn enumeration expected text).value =
          .error (.nameMismatch expected grammar.name) := by
        rw [ofTextIn, decoded]
        simp [named]
      simp only [failed, Except.ok.injEq, forall_eq', named, false_implies, iff_true]
      exact fun _ _ => .failed _

end Language

/-- When repeated loads agree. Acceptance and the warnings are the same under all
enumerations, so the only thing to vary is the fault that is told, and it never varies
exactly for the grammars that are free of order. -/
theorem repeated_loads_agree_iff [Matcher] (grammar : Grammar) (expected text : String) :
    (∀ enumeration found, (grammar.enumerated enumeration).validate.value = .ok found ↔
      grammar.validate.value = .ok found) ∧
    ((∀ first second : Enumeration, (grammar.enumerated first).validate.value =
      (grammar.enumerated second).validate.value) ↔ Validation.OrderFree grammar) ∧
    ((∀ first second : Enumeration, Language.SameOutcome
      (Language.ofTextIn first expected text).value
      (Language.ofTextIn second expected text).value) ↔
      ∀ decoded, Document.readGrammar text = .ok decoded → decoded.name = expected →
        Validation.OrderFree decoded) :=
  ⟨Validation.validate_enumerated_eq_ok_iff grammar,
    Validation.validate_enumerated_eq_iff_orderFree grammar,
    Language.sameOutcome_ofTextIn_iff expected text⟩

/-- An artifact with two sets of reserved words, each of which refers to a name that is
not defined. -/
def quarrel : String :=
  "\x7b\"name\": \"quarrel\", \"rules\": \x7b\"start\": [\"BLANK\"]\x7d, \"reserved\": " ++
    "\x7b\"left\": [[\"SYMBOL\", null, \"one\"]], \"right\": [[\"SYMBOL\", null, \"two\"]]\x7d\x7d"

/-- Two loads of this artifact tell different faults: one in the written order, and one
that comes to the other set first. -/
theorem quarrel_loads_differ :
    ¬ Language.SameOutcome (Language.ofText "quarrel" quarrel).value
      (Language.ofTextIn (.leading ("right", [.symbol "two"])) "quarrel" quarrel).value := by
  have decoded : (Document.readGrammar quarrel).toOption.any fun grammar =>
      grammar.name = "quarrel" ∧
      (Validation.violations (grammar.enumerated .written)).head? =
        some (.undefinedSymbol "one" "reserved") ∧
      (Validation.violations (grammar.enumerated (.leading ("right", [.symbol "two"])))).head? =
        some (.undefinedSymbol "two" "reserved") := by
    decide +kernel
  cases read : Document.readGrammar quarrel with
  | error fault => simp [read, Except.toOption] at decoded
  | ok grammar =>
    simp only [read, Except.toOption, Option.any_some, decide_eq_true_eq] at decoded
    obtain ⟨named, left, right⟩ := decoded
    have first := (Validation.validate_eq_error_iff _ _).mpr left
    have second := (Validation.validate_eq_error_iff _ _).mpr right
    rw [← Language.ofTextIn_written, Language.ofTextIn, Language.ofTextIn, read]
    simp only [named, if_true]
    rw [Language.sameOutcome_enumerated_iff, first, second]
    simp

end GrammarArtifact
