import GrammarArtifact.Proofs.Document.Accepting
import GrammarArtifact.Rule.Build

/-!
# Reading what has been written

The tree of a grammar has a member for everything that the grammar holds, so reading any
layout of it gives the grammar back. For rules this is an induction on the number of
brackets that may be opened. It is the one place where the depth of the tree is needed: the
content of a rule is one bracket deeper than the rule, and its members are two.
-/

namespace GrammarArtifact.Document

open Value

variable {α κ : Type}

/-! ## Depths -/

/-- No element is deeper than all of them. -/
theorem depth_le_depthOf {item : Value} {items : List Value} (member : item ∈ items) :
    item.depth ≤ depthOf items := by
  induction items with
  | nil => simp at member
  | cons first items induction =>
    rw [depthOf]
    rcases List.mem_cons.mp member with rfl | later
    · exact Nat.le_max_left _ _
    · exact Nat.le_trans (induction later) (Nat.le_max_right _ _)

/-- No value of a member is deeper than all of them. -/
theorem depth_le_depthIn {key : String} {value : Value} {members : List (String × Value)}
    (member : (key, value) ∈ members) : value.depth ≤ depthIn members := by
  induction members with
  | nil => simp at member
  | cons first members induction =>
    obtain ⟨firstKey, firstValue⟩ := first
    rw [depthIn]
    rcases List.mem_cons.mp member with same | later
    · cases same
      exact Nat.le_max_left _ _
    · exact Nat.le_trans (induction later) (Nat.le_max_right _ _)

/-- The elements of a list are one bracket less deep than the list. -/
theorem depth_lt_list (write : α → Value) {elements : List α} {element : α}
    (member : element ∈ elements) :
    (write element).depth + 1 ≤ (Value.list (elements.map write)).depth := by
  rw [depth]
  exact Nat.succ_le_succ (depth_le_depthOf (List.mem_map_of_mem member))

/-- So are the values of a table. -/
theorem depth_lt_ofTable (write : α → Value) {bindings : Table α} {entry : String × α}
    (member : entry ∈ bindings.entries) :
    (write entry.2).depth + 1 ≤ (ofTable write bindings).depth := by
  rw [ofTable, depth]
  exact Nat.succ_le_succ (depth_le_depthIn (List.mem_map.mpr ⟨entry, member, rfl⟩))

/-- So are the parts of a record. -/
theorem depth_lt_parts {form : RecordForm κ} {parts : List (κ × Value)} {key : κ} {value : Value}
    (member : (key, value) ∈ parts) :
    value.depth + 1 ≤ (Value.object (parts.map fun part => (form.label part.1, part.2))).depth := by
  rw [depth]
  exact Nat.succ_le_succ
    (depth_le_depthIn (List.mem_map_of_mem (f := fun part => (form.label part.1, part.2)) member))

/-- A part that can be missing keeps its place when keys are turned into labels. -/
theorem map_label_optional (form : RecordForm κ) (key : κ) (write : α → Value)
    (part : Option α) :
    (Value.optional key write part).map (fun part => (form.label part.1, part.2)) =
      Value.optional (form.label key) write part := by
  cases part <;> rfl

/-! ## Rules -/

theorem accepts_ruleKind (depth : Nat) (kind : RuleKind) :
    Accepts (ruleKind depth) (.string kind.tag) kind := by
  intro after text closes laid
  obtain ⟨front, rest, quote, scanned, left⟩ := scanString_of_laidOut laid
  have named : Yields (kindName ('"' :: front)) kind rest :=
    yields_kindName.mpr ⟨kind.tag, scanned, RuleKind.ofTag?_tag kind⟩
  exact ⟨rest, yields_ruleKind.mpr (.inl ⟨front, quote, named⟩), left⟩

/-- Integers and strings are read as values of any form. -/
theorem accepts_loose_number (depth : Nat) {value : Int} (low : -9223372036854775808 ≤ value)
    (high : value ≤ 18446744073709551615) :
    Accepts (loose depth) (.number value) (.number (.integer value)) := by
  rintro after text closes ⟨rest, found, left⟩
  obtain ⟨c, tail, written, start⟩ := exists_toList_toString value
  have yields := yields_number_written value low high (ends_of_laidOut closes left)
  rw [written, List.cons_append] at found yields
  have read : Yields (looseScalar (skipSpace text)) (.number (.integer value)) rest := by
    rw [found, looseScalar, if_neg (ne_of_number start (by decide)),
      if_neg (ne_of_number start (by decide)), if_neg (ne_of_number start (by decide)),
      if_pos (by simpa using start)]
    exact Reader.yields_map.mpr ⟨_, yields, rfl⟩
  refine ⟨rest, yields_loose.mpr (.inr (.inr ⟨fun front => ?_, read⟩)), left⟩
  simp [found, ne_of_number start (d := '[') (by decide),
    ne_of_number start (d := '\x7b') (by decide)]

theorem accepts_loose_string (depth : Nat) (string : String) :
    Accepts (loose depth) (.string string) (.string string) := by
  intro after text closes laid
  obtain ⟨front, rest, quote, scanned, left⟩ := scanString_of_laidOut laid
  have read : Yields (looseScalar (skipSpace text)) (.string string) rest := by
    rw [quote]
    exact Reader.yields_map.mpr ⟨string, Reader.yields_quoted.mpr scanned, rfl⟩
  exact ⟨rest, yields_loose.mpr (.inr (.inr ⟨by simp [quote], read⟩)), left⟩

theorem accepts_ruleValue (depth : Nat) (value : RuleValue) :
    Accepts (ruleValue depth) (ofRuleValue value) value := by
  intro after text closes laid
  cases value with
  | level number =>
    have low : Int32.minValue.toInt ≤ number.toInt := Int32.minValue_le_toInt number
    have high : number.toInt ≤ Int32.maxValue.toInt := Int32.toInt_le number
    obtain ⟨rest, yields, left⟩ := accepts_loose_number depth
      (Int.le_trans (by decide) low) (Int.le_trans high (by decide)) closes laid
    refine ⟨rest, yields_ruleValue.mpr ⟨_, yields, ?_⟩, left⟩
    rw [ruleValue?, if_pos ⟨low, high⟩, Int32.ofInt_toInt]
  | text string =>
    obtain ⟨rest, yields, left⟩ := accepts_loose_string depth string closes laid
    exact ⟨rest, yields_ruleValue.mpr ⟨_, yields, rfl⟩, left⟩

/-- The trees of rules are those of each of them. -/
theorem ofRules_eq_map (rules : List Rule) : ofRules rules = rules.map ofRule := by
  induction rules with
  | nil => rfl
  | cons rule rules induction => rw [ofRules, induction, List.map_cons]

/-- The parts of a rule by their keys. -/
def ruleParts (rule : Rule) : List (RuleKey × Value) :=
  [(RuleKey.kind, Value.string rule.kind.tag)] ++
    Value.optional RuleKey.value ofRuleValue rule.value ++
    Value.optional RuleKey.name Value.string rule.name ++
    Value.optional RuleKey.content ofRule rule.content ++
    [(RuleKey.members, Value.list (rule.members.map ofRule))] ++
    Value.optional RuleKey.named Value.flag rule.named ++
    Value.optional RuleKey.flags Value.string rule.flags ++
    Value.optional RuleKey.contextName Value.string rule.contextName

/-- The tree of a rule has a member for each part. -/
theorem ofRule_eq_object (rule : Rule) :
    ofRule rule = .object ((ruleParts rule).map fun part => (ruleForm.label part.1, part.2)) := by
  obtain ⟨kind, value, name, content, members, named, flags, contextName⟩ := rule
  have inner : ofContent content = Value.optional "content" ofRule content := by
    cases content <;> simp [ofContent, Value.optional]
  simp only [ofRule, ruleParts, List.map_append, map_label_optional, inner, ofRules_eq_map]
  rfl

/-- The parts of a rule are filled in the order in which they are written. -/
theorem fills_rule {depth : Nat} {content member : Reader Rule} {rule : Rule}
    (acceptsContent : ∀ inner, rule.content = some inner → Accepts content (ofRule inner) inner)
    (acceptsMember : ∀ inner ∈ rule.members, Accepts member (ofRule inner) inner) :
    Fills (ruleField depth content (some member)) default (ruleParts rule) rule := by
  obtain ⟨kind, value, name, inner, members, named, flags, contextName⟩ := rule
  let field := ruleField depth content (some member)
  have kindFilled : Fills field default [(.kind, .string kind.tag)] { kind } :=
    .one (accepts_map _ (accepts_ruleKind depth kind))
  have valueFilled : Fills field { kind } (Value.optional .value ofRuleValue value)
      { kind, value } :=
    .optional rfl (fun known _ => accepts_ruleValue depth known) rfl rfl
  have nameFilled : Fills field { kind, value } (Value.optional .name .string name)
      { kind, value, name } :=
    .optional rfl (fun known _ => accepts_string known) rfl rfl
  have contentFilled : Fills field { kind, value, name }
      (Value.optional .content ofRule inner) { kind, value, name, content := inner } :=
    .optional rfl acceptsContent rfl rfl
  have membersFilled : Fills field { kind, value, name, content := inner }
      [(.members, .list (members.map ofRule))] { kind, value, name, content := inner, members } :=
    .one (accepts_map _ (accepts_list acceptsMember))
  have namedFilled : Fills field { kind, value, name, content := inner, members }
      (Value.optional .named .flag named)
      { kind, value, name, content := inner, members, named } :=
    .optional rfl (fun known _ => accepts_boolean known) rfl rfl
  have flagsFilled : Fills field { kind, value, name, content := inner, members, named }
      (Value.optional .flags .string flags)
      { kind, value, name, content := inner, members, named, flags } :=
    .optional rfl (fun known _ => accepts_string known) rfl rfl
  have contextFilled : Fills field { kind, value, name, content := inner, members, named, flags }
      (Value.optional .contextName .string contextName)
      { kind, value, name, content := inner, members, named, flags, contextName } :=
    .optional rfl (fun known _ => accepts_string known) rfl rfl
  exact ((((((kindFilled.append valueFilled).append nameFilled).append contentFilled).append
    membersFilled).append namedFilled).append flagsFilled).append contextFilled

/-- No part of a rule is written twice. -/
theorem nodup_ruleParts (rule : Rule) : ((ruleParts rule).map Prod.fst).Nodup := by
  have inOrder : ((ruleParts rule).map Prod.fst).Sublist ruleForm.keys := by
    simp only [ruleParts, List.map_append]
    have value := (List.Sublist.refl [RuleKey.kind]).append
      (keys_optional_sublist .value ofRuleValue rule.value)
    have content := (value.append (keys_optional_sublist .name .string rule.name)).append
      (keys_optional_sublist .content ofRule rule.content)
    have named := (content.append (.refl [.members])).append
      (keys_optional_sublist .named .flag rule.named)
    exact (named.append (keys_optional_sublist .flags .string rule.flags)).append
      (keys_optional_sublist .contextName .string rule.contextName)
  exact inOrder.nodup (by decide)

/-- The members of a rule are always written. -/
theorem members_mem_ruleParts (rule : Rule) :
    (RuleKey.members, Value.list (rule.members.map ofRule)) ∈ ruleParts rule := by
  simp [ruleParts]

/-- The rules inside a rule are one and two brackets less deep. -/
theorem depth_lt_ofRule (rule : Rule) :
    (∀ inner, rule.content = some inner → (ofRule inner).depth + 1 ≤ (ofRule rule).depth) ∧
      ∀ inner ∈ rule.members, (ofRule inner).depth + 2 ≤ (ofRule rule).depth := by
  rw [ofRule_eq_object rule]
  constructor
  · intro inner same
    have content : (RuleKey.content, ofRule inner) ∈ ruleParts rule := by
      simp [ruleParts, Value.optional, same]
    exact depth_lt_parts content
  · intro inner member
    have below := depth_lt_list ofRule member
    exact Nat.le_trans (Nat.succ_le_succ below) (depth_lt_parts (members_mem_ruleParts rule))

/-- A rule is written with two brackets at least. -/
theorem two_le_depth_ofRule (rule : Rule) : 2 ≤ (ofRule rule).depth := by
  have bracket : 1 ≤ (Value.list (rule.members.map ofRule)).depth := by
    rw [depth]
    exact Nat.le_add_left 1 _
  rw [ofRule_eq_object rule]
  exact Nat.le_trans (Nat.succ_le_succ bracket) (depth_lt_parts (members_mem_ruleParts rule))

/-- The kind of a rule, which is required, is always written. -/
theorem required_mem_ruleParts (rule : Rule) (key : RuleKey)
    (required : ruleForm.required key = true) : key ∈ (ruleParts rule).map Prod.fst := by
  have kind : key = .kind := by simpa [ruleForm] using required
  simp [kind, ruleParts]

/-- A rule is read back if enough brackets may be opened, by induction on their number. -/
theorem accepts_rule (depth : Nat) (written : Rule) (shallow : (ofRule written).depth ≤ depth) :
    Accepts (rule depth) (ofRule written) written := by
  induction depth using Nat.strongRecOn generalizing written with
  | ind depth induction =>
    obtain ⟨contentDepth, memberDepth⟩ := depth_lt_ofRule written
    have brackets := two_le_depth_ofRule written
    match depth, induction with
    | 0, _ => omega
    | 1, _ => omega
    | inner + 2, induction =>
      have content (below : Rule) (same : written.content = some below) :
          Accepts (rule (inner + 1)) (ofRule below) below := by
        have bound := contentDepth below same
        exact induction (inner + 1) (by omega) below (by omega)
      have members (below : Rule) (member : below ∈ written.members) :
          Accepts (rule inner) (ofRule below) below := by
        have bound := memberDepth below member
        exact induction inner (by omega) below (by omega)
      rw [ofRule_eq_object]
      exact RecordForm.accepts_read (fills_rule content members) key?_label_ruleForm
        (nodup_ruleParts written) (required_mem_ruleParts written)

/-! ## Grammars -/

/-- The parts of a grammar by their keys. -/
def grammarParts (grammar : Grammar) : List (GrammarKey × Value) :=
  Value.optional GrammarKey.schema Value.string grammar.schema ++
    [(GrammarKey.name, Value.string grammar.name)] ++
    Value.optional GrammarKey.inherits Value.string grammar.inherits ++
    [(GrammarKey.rules, ofTable ofRule grammar.rules),
      (GrammarKey.extras, Value.list (grammar.extras.map ofRule)),
      (GrammarKey.externals, Value.list (grammar.externals.map ofRule)),
      (GrammarKey.inline, ofTexts grammar.inline),
      (GrammarKey.precedences,
        Value.list (grammar.precedences.map fun group => .list (group.map ofRule))),
      (GrammarKey.conflicts, Value.list (grammar.conflicts.map ofTexts)),
      (GrammarKey.reserved, ofTable (fun words => .list (words.map ofRule)) grammar.reserved)] ++
    Value.optional GrammarKey.word Value.string grammar.word ++
    [(GrammarKey.supertypes, ofTexts grammar.supertypes)]

/-- The tree of a grammar has a member for each part. -/
theorem ofGrammar_eq_object (grammar : Grammar) :
    ofGrammar grammar =
      .object ((grammarParts grammar).map fun part => (grammarForm.label part.1, part.2)) := by
  simp only [ofGrammar, grammarParts, List.map_append, map_label_optional, ofRules_eq_map]
  rfl

/-- The name and the rules of a grammar, which are required, are always written. -/
theorem required_mem_grammarParts (grammar : Grammar) (key : GrammarKey)
    (required : grammarForm.required key = true) :
    key ∈ (grammarParts grammar).map Prod.fst := by
  have either : key = .name ∨ key = .rules := by simpa [grammarForm] using required
  rcases either with rfl | rfl <;> simp [grammarParts]

/-- No part of a grammar is written twice. -/
theorem nodup_grammarParts (grammar : Grammar) : ((grammarParts grammar).map Prod.fst).Nodup := by
  have inOrder : ((grammarParts grammar).map Prod.fst).Sublist grammarForm.keys := by
    simp only [grammarParts, List.map_append]
    have name := (keys_optional_sublist .schema .string grammar.schema).append
      (.refl [GrammarKey.name])
    have sections := (name.append (keys_optional_sublist .inherits .string grammar.inherits)).append
      (.refl [GrammarKey.rules, .extras, .externals, .inline, .precedences, .conflicts, .reserved])
    exact (sections.append (keys_optional_sublist .word .string grammar.word)).append
      (.refl [GrammarKey.supertypes])
  exact inOrder.nodup (by decide)

theorem accepts_rules {depth : Nat} {rules : List Rule}
    (shallow : (Value.list (rules.map ofRule)).depth ≤ depth + 1) :
    Accepts (Reader.list (some (rule depth))) (.list (rules.map ofRule)) rules := by
  refine accepts_list fun written member => accepts_rule depth written ?_
  exact Nat.le_of_succ_le_succ (Nat.le_trans (depth_lt_list ofRule member) shallow)

theorem accepts_ruleGroups {depth : Nat} {groups : List (List Rule)}
    (shallow : (Value.list (groups.map fun group => .list (group.map ofRule))).depth ≤ depth + 2) :
    Accepts (Reader.list (some (Reader.list (some (rule depth)))))
      (.list (groups.map fun group => .list (group.map ofRule))) groups := by
  refine accepts_list fun group member => accepts_rules ?_
  have below := depth_lt_list (fun group : List Rule => .list (group.map ofRule)) member
  exact Nat.le_of_succ_le_succ (Nat.le_trans below shallow)

theorem accepts_ruleTable {depth : Nat} {rules : Table Rule}
    (shallow : (ofTable ofRule rules).depth ≤ depth + 1) :
    Accepts (table (some (rule depth))) (ofTable ofRule rules) rules := by
  refine accepts_table fun entry member => accepts_rule depth entry.2 ?_
  exact Nat.le_of_succ_le_succ (Nat.le_trans (depth_lt_ofTable ofRule member) shallow)

theorem accepts_groupTable {depth : Nat} {groups : Table (List Rule)}
    (shallow : (ofTable (fun group => .list (group.map ofRule)) groups).depth ≤ depth + 2) :
    Accepts (table (some (Reader.list (some (rule depth)))))
      (ofTable (fun group => .list (group.map ofRule)) groups) groups := by
  refine accepts_table fun entry member => accepts_rules ?_
  have below := depth_lt_ofTable (fun group : List Rule => .list (group.map ofRule)) member
  exact Nat.le_of_succ_le_succ (Nat.le_trans below shallow)

theorem accepts_texts (texts : List String) :
    Accepts (Reader.list (some Reader.string)) (ofTexts texts) texts :=
  accepts_list fun text _ => accepts_string text

/-- The parts of a grammar are filled in the order in which they are written. -/
theorem fills_grammar {written : Grammar} (shallow : (ofGrammar written).depth ≤ nestingLimit) :
    Fills grammarField { name := "", rules := .empty } (grammarParts written) written := by
  have below (key : GrammarKey) (value : Value) (member : (key, value) ∈ grammarParts written) :
      value.depth ≤ nestingLimit - 1 := by
    rw [ofGrammar_eq_object] at shallow
    exact Nat.le_of_succ_le_succ (Nat.le_trans (depth_lt_parts member) shallow)
  obtain ⟨schema, name, inherits, rules, extras, externals, inline, precedences, conflicts,
    reserved, word, supertypes⟩ := written
  have rulesAccepted : Accepts (table (some (rule (nestingLimit - 2)))) (ofTable ofRule rules)
      rules :=
    accepts_ruleTable (below .rules _ (by simp [grammarParts]))
  have extrasAccepted : Accepts (Reader.list (some (rule (nestingLimit - 2))))
      (.list (extras.map ofRule)) extras :=
    accepts_rules (below .extras _ (by simp [grammarParts]))
  have externalsAccepted : Accepts (Reader.list (some (rule (nestingLimit - 2))))
      (.list (externals.map ofRule)) externals :=
    accepts_rules (below .externals _ (by simp [grammarParts]))
  have precedencesAccepted : Accepts (Reader.list (some (Reader.list
      (some (rule (nestingLimit - 3))))))
      (.list (precedences.map fun group => .list (group.map ofRule))) precedences :=
    accepts_ruleGroups (below .precedences _ (by simp [grammarParts]))
  have reservedAccepted : Accepts (table (some (Reader.list (some (rule (nestingLimit - 3))))))
      (ofTable (fun words => .list (words.map ofRule)) reserved) reserved :=
    accepts_groupTable (below .reserved _ (by simp [grammarParts]))
  have schemaFilled : Fills grammarField { name := "", rules := .empty }
      (Value.optional .schema .string schema) { schema, name := "", rules := .empty } :=
    .optional rfl (fun known _ => accepts_string known) rfl rfl
  have nameFilled : Fills grammarField { schema, name := "", rules := .empty }
      [(.name, .string name)] { schema, name, rules := .empty } :=
    .one (accepts_map _ (accepts_string name))
  have inheritsFilled : Fills grammarField { schema, name, rules := .empty }
      (Value.optional .inherits .string inherits) { schema, name, inherits, rules := .empty } :=
    .optional rfl (fun known _ => accepts_string known) rfl rfl
  have sectionsFilled : Fills grammarField { schema, name, inherits, rules := .empty }
      [(.rules, ofTable ofRule rules), (.extras, .list (extras.map ofRule)),
        (.externals, .list (externals.map ofRule)), (.inline, ofTexts inline),
        (.precedences, .list (precedences.map fun group => .list (group.map ofRule))),
        (.conflicts, .list (conflicts.map ofTexts)),
        (.reserved, ofTable (fun words => .list (words.map ofRule)) reserved)]
      { schema, name, inherits, rules, extras, externals, inline, precedences, conflicts,
        reserved } :=
    .next (accepts_map _ rulesAccepted) <| .next (accepts_map _ extrasAccepted) <|
      .next (accepts_map _ externalsAccepted) <| .next (accepts_map _ (accepts_texts inline)) <|
      .next (accepts_map _ precedencesAccepted) <|
      .next (accepts_map _ (accepts_list fun group _ => accepts_texts group)) <|
      .one (accepts_map _ reservedAccepted)
  have wordFilled : Fills grammarField
      { schema, name, inherits, rules, extras, externals, inline, precedences, conflicts,
        reserved }
      (Value.optional .word .string word)
      { schema, name, inherits, rules, extras, externals, inline, precedences, conflicts,
        reserved, word } :=
    .optional rfl (fun known _ => accepts_string known) rfl rfl
  have supertypesFilled : Fills grammarField
      { schema, name, inherits, rules, extras, externals, inline, precedences, conflicts,
        reserved, word }
      [(.supertypes, ofTexts supertypes)]
      { schema, name, inherits, rules, extras, externals, inline, precedences, conflicts,
        reserved, word, supertypes } :=
    .one (accepts_map _ (accepts_texts supertypes))
  exact ((((schemaFilled.append nameFilled).append inheritsFilled).append sectionsFilled).append
    wordFilled).append supertypesFilled

/-- A grammar is read back unless it is nested too deeply. -/
theorem accepts_grammar {written : Grammar} (shallow : (ofGrammar written).depth ≤ nestingLimit) :
    Accepts grammar (ofGrammar written) written := by
  rw [ofGrammar_eq_object]
  exact RecordForm.accepts_read (fills_grammar shallow) key?_label_grammarForm
    (nodup_grammarParts written) (required_mem_grammarParts written)

/-- Every layout of the tree of a grammar is a document that describes the grammar. -/
theorem readGrammar_of_laidOut {written : Grammar} {document : String}
    (shallow : (ofGrammar written).depth ≤ nestingLimit)
    (laid : LaidOut (ofGrammar written).tokens document.toList) :
    readGrammar document = .ok written := by
  have whole : LaidOut ((ofGrammar written).tokens ++ []) document.toList := by
    rwa [List.append_nil]
  obtain ⟨rest, yields, left⟩ := accepts_grammar shallow (show Closes [] from trivial) whole
  have spaces : skipSpace rest = [] := left
  rw [readGrammar, readAll_of_yields yields, spaces]
  rfl

/-- Reading loses nothing of what is written. A grammar that is written out in full, every
part of it and of its rules under the part's name, is read back as it was, with its rules
and reserved sets in their order, whatever spaces are put between the tokens. Only the
brackets must not be nested more than 127 deep. -/
theorem written_grammar_is_read_back {grammar : Grammar}
    (shallow : (Value.ofGrammar grammar).depth ≤ 127) :
    readGrammar (Value.ofGrammar grammar).text = .ok grammar ∧
      ∀ document : String, LaidOut (Value.ofGrammar grammar).tokens document.toList →
        readGrammar document = .ok grammar := by
  have layouts (document : String)
      (laid : LaidOut (Value.ofGrammar grammar).tokens document.toList) :
      readGrammar document = .ok grammar :=
    readGrammar_of_laidOut shallow laid
  refine ⟨layouts _ ?_, layouts⟩
  rw [Value.text, String.toList_ofList]
  exact laidOut_flatten (solid_tokens _)

/-- A grammar with text that needs escapes, a level below zero and nested rules. -/
def quoting : Grammar where
  name := "ivy"
  rules := ⟨[("leaf", .prec (-1) (.field "tip" (.string "\"\u0001"))), ("bud", .seq [.blank])], by
    decide⟩
  word := some "bud"

/-- Its quotes and control characters are escaped, and parts that are missing are left out. -/
example :
    (Value.ofRule (.prec (-1) (.string "\"\u0001"))).text =
      "\x7b\"type\":\"PREC\",\"value\":-1,\"content\":\x7b\"type\":\"STRING\"," ++
        "\"value\":\"\\\"\\u0001\",\"members\":[]\x7d,\"members\":[]\x7d" := by
  decide +kernel

/-- It is read back from its written form. -/
theorem quoting_read_back :
    (Value.ofGrammar quoting).depth = 6 ∧
      readGrammar (Value.ofGrammar quoting).text = .ok quoting :=
  ⟨by decide +kernel, (written_grammar_is_read_back (by decide +kernel)).1⟩

end GrammarArtifact.Document
