import GrammarArtifact.Proofs.Document.RecordMeaning

/-!
# What trees mean as rules and grammars

Rules and grammars are records. Each key has a meaning for its part, and what the readers of
rules and grammars make of a text is what the tree of the text means. The meaning of a rule
depends on the number of brackets that may still be opened, and goes down with it.
-/

namespace GrammarArtifact.Document

/-! ## Rules -/

/-- The parts of a rule. -/
def Parts.rule : Parts RuleKey Rule where
  Part
    | .kind => RuleKind
    | .value => Option RuleValue
    | .name | .flags | .contextName => Option String
    | .content => Option Rule
    | .members => List Rule
    | .named => Option Bool
  get
    | .kind, rule => rule.kind
    | .value, rule => rule.value
    | .name, rule => rule.name
    | .content, rule => rule.content
    | .members, rule => rule.members
    | .named, rule => rule.named
    | .flags, rule => rule.flags
    | .contextName, rule => rule.contextName
  set
    | .kind, kind, rule => { rule with kind }
    | .value, value, rule => { rule with value }
    | .name, name, rule => { rule with name }
    | .content, content, rule => { rule with content }
    | .members, members, rule => { rule with members }
    | .named, named, rule => { rule with named }
    | .flags, flags, rule => { rule with flags }
    | .contextName, contextName, rule => { rule with contextName }
  get_set key _ _ := by cases key <;> rfl
  get_set_of_ne {key other} apart _ _ := by
    cases key <;> cases other <;> first | rfl | exact absurd rfl apart
  ext {record other} same := by
    cases record
    cases other
    rw [Rule.mk.injEq]
    exact ⟨same .kind, same .value, same .name, same .content, same .members, same .named,
      same .flags, same .contextName⟩

/-- The readers of the parts of a rule. -/
def ruleReaders (depth : Nat) (content : Reader Rule) (members : Reader (List Rule)) :
    (key : RuleKey) → Reader (Parts.rule.Part key)
  | .kind => ruleKind depth
  | .value => Reader.optional (ruleValue depth)
  | .name | .flags | .contextName => Reader.optional Reader.string
  | .content => Reader.optional content
  | .members => members
  | .named => Reader.optional Reader.boolean

/-- The meanings of the parts of a rule. -/
def ruleMeanings (depth : Nat) (content : Meaning Rule) (members : Meaning (List Rule)) :
    (key : RuleKey) → Meaning (Parts.rule.Part key)
  | .kind => Meaning.kind depth
  | .value => Meaning.optional (Meaning.ruleValue depth)
  | .name | .flags | .contextName => Meaning.optional Meaning.string
  | .content => Meaning.optional content
  | .members => members
  | .named => Meaning.optional Meaning.boolean

theorem reads_ruleReaders (depth : Nat) {content : Reader Rule} {members : Reader (List Rule)}
    {contentMeaning : Meaning Rule} {membersMeaning : Meaning (List Rule)}
    (readsContent : Reads content contentMeaning) (readsMembers : Reads members membersMeaning)
    (key : RuleKey) :
    Reads (ruleReaders depth content members key)
      (ruleMeanings depth contentMeaning membersMeaning key) := by
  cases key with
  | kind => exact reads_ruleKind depth
  | value => exact reads_optional (reads_ruleValue depth)
  | name | flags | contextName => exact reads_optional reads_string
  | content => exact reads_optional readsContent
  | members => exact readsMembers
  | named => exact reads_optional reads_boolean

/-- A key of a rule is read into its part. -/
theorem ruleField_eq_fill (depth : Nat) (content : Reader Rule) (members : Option (Reader Rule)) :
    ruleField depth content members =
      RecordForm.fill Parts.rule (ruleReaders depth content (Reader.list members)) := by
  funext key rule
  cases key <;> rfl

/-- What a tree means as a rule, when some brackets may be opened. -/
def Meaning.rule : Nat → Meaning Rule
  | 0 => fun _ _ => False
  | 1 => Meaning.record ruleForm Parts.rule
      (ruleMeanings 0 (Meaning.rule 0) fun _ _ => False) default
  | inner + 2 => Meaning.record ruleForm Parts.rule
      (ruleMeanings (inner + 1) (Meaning.rule (inner + 1)) (.list (Meaning.rule inner))) default

/-- A rule is what its tree means, by induction on the brackets that may be opened. -/
theorem reads_rule (depth : Nat) : Reads (rule depth) (Meaning.rule depth) := by
  induction depth using Nat.strongRecOn with
  | ind depth induction =>
    match depth, induction with
    | 0, _ =>
      intro text value rest _
      simp [rule, RecordForm.yields_read, Meaning.rule]
    | 1, induction =>
      have reads := RecordForm.reads_read key?_label_ruleForm
        (reads_ruleReaders 0 (induction 0 (by omega)) reads_list_none) default
      rwa [← ruleField_eq_fill] at reads
    | inner + 2, induction =>
      have reads := RecordForm.reads_read key?_label_ruleForm
        (reads_ruleReaders (inner + 1) (induction (inner + 1) (by omega))
          (reads_list (induction inner (by omega)))) default
      rwa [← ruleField_eq_fill] at reads

/-! ## Grammars -/

/-- The parts of a grammar. -/
def Parts.grammar : Parts GrammarKey Grammar where
  Part
    | .name => String
    | .schema | .inherits | .word => Option String
    | .rules => Table Rule
    | .extras | .externals => List Rule
    | .inline | .supertypes => List String
    | .precedences => List (List Rule)
    | .conflicts => List (List String)
    | .reserved => Table (List Rule)
  get
    | .schema, grammar => grammar.schema
    | .name, grammar => grammar.name
    | .inherits, grammar => grammar.inherits
    | .rules, grammar => grammar.rules
    | .extras, grammar => grammar.extras
    | .externals, grammar => grammar.externals
    | .inline, grammar => grammar.inline
    | .precedences, grammar => grammar.precedences
    | .conflicts, grammar => grammar.conflicts
    | .reserved, grammar => grammar.reserved
    | .word, grammar => grammar.word
    | .supertypes, grammar => grammar.supertypes
  set
    | .schema, schema, grammar => { grammar with schema }
    | .name, name, grammar => { grammar with name }
    | .inherits, inherits, grammar => { grammar with inherits }
    | .rules, rules, grammar => { grammar with rules }
    | .extras, extras, grammar => { grammar with extras }
    | .externals, externals, grammar => { grammar with externals }
    | .inline, inline, grammar => { grammar with inline }
    | .precedences, precedences, grammar => { grammar with precedences }
    | .conflicts, conflicts, grammar => { grammar with conflicts }
    | .reserved, reserved, grammar => { grammar with reserved }
    | .word, word, grammar => { grammar with word }
    | .supertypes, supertypes, grammar => { grammar with supertypes }
  get_set key _ _ := by cases key <;> rfl
  get_set_of_ne {key other} apart _ _ := by
    cases key <;> cases other <;> first | rfl | exact absurd rfl apart
  ext {record other} same := by
    cases record
    cases other
    rw [Grammar.mk.injEq]
    exact ⟨same .schema, same .name, same .inherits, same .rules, same .extras, same .externals,
      same .inline, same .precedences, same .conflicts, same .reserved, same .word,
      same .supertypes⟩

/-- The readers of the parts of a grammar. -/
def grammarReaders : (key : GrammarKey) → Reader (Parts.grammar.Part key)
  | .name => Reader.string
  | .schema | .inherits | .word => Reader.optional Reader.string
  | .rules => table (some (rule (nestingLimit - 2)))
  | .extras | .externals => Reader.list (some (rule (nestingLimit - 2)))
  | .inline | .supertypes => Reader.list (some Reader.string)
  | .precedences => Reader.list (some (Reader.list (some (rule (nestingLimit - 3)))))
  | .conflicts => Reader.list (some (Reader.list (some Reader.string)))
  | .reserved => table (some (Reader.list (some (rule (nestingLimit - 3)))))

/-- The meanings of the parts of a grammar. -/
def grammarMeanings : (key : GrammarKey) → Meaning (Parts.grammar.Part key)
  | .name => Meaning.string
  | .schema | .inherits | .word => Meaning.optional Meaning.string
  | .rules => Meaning.table (Meaning.rule (nestingLimit - 2))
  | .extras | .externals => Meaning.list (Meaning.rule (nestingLimit - 2))
  | .inline | .supertypes => Meaning.list Meaning.string
  | .precedences => Meaning.list (Meaning.list (Meaning.rule (nestingLimit - 3)))
  | .conflicts => Meaning.list (Meaning.list Meaning.string)
  | .reserved => Meaning.table (Meaning.list (Meaning.rule (nestingLimit - 3)))

theorem reads_grammarReaders (key : GrammarKey) :
    Reads (grammarReaders key) (grammarMeanings key) := by
  cases key with
  | name => exact reads_string
  | schema | inherits | word => exact reads_optional reads_string
  | rules => exact reads_table (reads_rule _)
  | extras | externals => exact reads_list (reads_rule _)
  | inline | supertypes => exact reads_list reads_string
  | precedences => exact reads_list (reads_list (reads_rule _))
  | conflicts => exact reads_list (reads_list reads_string)
  | reserved => exact reads_table (reads_list (reads_rule _))

/-- A key of a grammar is read into its part. -/
theorem grammarField_eq_fill : grammarField = RecordForm.fill Parts.grammar grammarReaders := by
  funext key grammar
  cases key <;> rfl

/-- What a tree means as a grammar. -/
def Meaning.grammar : Meaning Grammar :=
  Meaning.record grammarForm Parts.grammar grammarMeanings { name := "", rules := .empty }

/-- A grammar is what its tree means. -/
theorem reads_grammar : Reads grammar Meaning.grammar := by
  have reads := RecordForm.reads_read key?_label_grammarForm reads_grammarReaders
    { name := "", rules := .empty }
  rwa [← grammarField_eq_fill] at reads

end GrammarArtifact.Document
