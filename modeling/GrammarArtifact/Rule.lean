/-!
# Rules

A rule is a tree of nodes. The kind of a node says which of its other parts
matter, but a node can carry any of them: the tree keeps what the artifact holds,
and the checks decide later what is missing. The children of a node are its
content and then its members, whatever its kind.
-/

namespace GrammarArtifact

/-- The kinds of rule nodes. -/
inductive RuleKind
  | blank
  | string
  | pattern
  | symbol
  | choice
  | seq
  | many
  | many1
  | prec
  | precLeft
  | precRight
  | precDynamic
  | field
  | aliased
  | token
  | immediateToken
  | reserved
deriving DecidableEq, Repr

namespace RuleKind

/-- All kinds, in the order in which messages list them. -/
def all : List RuleKind :=
  [.blank, .string, .pattern, .symbol, .choice, .seq, .many, .many1, .prec, .precLeft,
    .precRight, .precDynamic, .field, .aliased, .token, .immediateToken, .reserved]

/-- The name by which artifacts call a kind. -/
def tag : RuleKind → String
  | .blank => "BLANK"
  | .string => "STRING"
  | .pattern => "PATTERN"
  | .symbol => "SYMBOL"
  | .choice => "CHOICE"
  | .seq => "SEQ"
  | .many => "REPEAT"
  | .many1 => "REPEAT1"
  | .prec => "PREC"
  | .precLeft => "PREC_LEFT"
  | .precRight => "PREC_RIGHT"
  | .precDynamic => "PREC_DYNAMIC"
  | .field => "FIELD"
  | .aliased => "ALIAS"
  | .token => "TOKEN"
  | .immediateToken => "IMMEDIATE_TOKEN"
  | .reserved => "RESERVED"

/-- The name by which messages call a kind. -/
def name : RuleKind → String
  | .blank => "BLANK"
  | .string => "STRING"
  | .pattern => "PATTERN"
  | .symbol => "SYMBOL"
  | .choice => "CHOICE"
  | .seq => "SEQ"
  | .many => "REPEAT"
  | .many1 => "REPEAT1"
  | .prec => "PREC"
  | .precLeft => "PREC_LEFT"
  | .precRight => "PREC_RIGHT"
  | .precDynamic => "PREC_DYNAMIC"
  | .field => "FIELD"
  | .aliased => "ALIAS"
  | .token => "TOKEN"
  | .immediateToken => "IMMEDIATE_TOKEN"
  | .reserved => "RESERVED"

/-- Messages call a kind as artifacts do. -/
theorem name_eq_tag (kind : RuleKind) : kind.name = kind.tag := by cases kind <;> rfl

/-- The kind that artifacts call by a name. -/
def ofTag? (tag : String) : Option RuleKind := all.find? (·.tag == tag)

theorem ofTag?_tag (kind : RuleKind) : ofTag? kind.tag = some kind := by
  cases kind <;> decide

/-- Wrappers are the kinds that need a content. -/
def isWrapper : RuleKind → Bool
  | .many | .many1 | .prec | .precLeft | .precRight | .precDynamic | .field | .aliased
  | .token | .immediateToken | .reserved => true
  | .blank | .string | .pattern | .symbol | .choice | .seq => false

/-- The kinds that give their content a precedence. -/
def isPrecedence : RuleKind → Bool
  | .prec | .precLeft | .precRight | .precDynamic => true
  | _ => false

end RuleKind

/-- What a node holds as its value: a precedence level, or a text. -/
inductive RuleValue
  | level (number : Int32)
  | text (text : String)
deriving DecidableEq, Repr

/-- A node of a rule tree. -/
structure Rule where
  kind : RuleKind
  value : Option RuleValue := none
  name : Option String := none
  content : Option Rule := none
  members : List Rule := []
  named : Option Bool := none
  flags : Option String := none
  contextName : Option String := none
deriving Repr

namespace Rule

instance : Inhabited Rule := ⟨{ kind := .blank }⟩

/-- The nodes directly below a node: its content, then its members. -/
def children (rule : Rule) : List Rule := rule.content.toList ++ rule.members

/-- The text that a node holds as its value. -/
def textValue? (rule : Rule) : Option String :=
  match rule.value with
  | some (.text text) => some text
  | _ => none

/-- Strings and patterns match text without referring to other rules. -/
def isTerminal (rule : Rule) : Bool := rule.kind = .string || rule.kind = .pattern

/-- Whether the node refers to another rule by name. -/
def isSymbol (rule : Rule) : Bool := rule.kind = .symbol

/-- The name of the rule that a symbol refers to. -/
def symbolName? (rule : Rule) : Option String := if rule.isSymbol then rule.name else none

/-- The level that a precedence node gives its content, if it is a number. -/
def precedence? (rule : Rule) : Option Int32 :=
  if rule.kind.isPrecedence then
    match rule.value with
    | some (.level number) => some number
    | _ => none
  else none

/-- The text that a string node matches. -/
def stringValue? (rule : Rule) : Option String :=
  if rule.kind = .string then rule.textValue? else none

/-- The expression that a pattern node matches. -/
def patternValue? (rule : Rule) : Option String :=
  if rule.kind = .pattern then rule.textValue? else none

mutual

/-- All nodes of a tree: a node comes before the nodes below it, and its content
before its members. -/
def nodes : Rule → List Rule
  | ⟨kind, value, name, content, members, named, flags, contextName⟩ =>
    ⟨kind, value, name, content, members, named, flags, contextName⟩ ::
      (nodesIn content ++ nodesOf members)

/-- The nodes of a content, if there is one. -/
def nodesIn : Option Rule → List Rule
  | none => []
  | some rule => nodes rule

/-- The nodes of several trees, one tree after the other. -/
def nodesOf : List Rule → List Rule
  | [] => []
  | rule :: rest => nodes rule ++ nodesOf rest

end

mutual

/-- Combine the nodes of a tree, in the order of `nodes`, without listing them. -/
def fold {α : Type} (step : α → Rule → α) (start : α) : Rule → α
  | ⟨kind, value, name, content, members, named, flags, contextName⟩ =>
    foldAll step
      (foldIn step
        (step start ⟨kind, value, name, content, members, named, flags, contextName⟩) content)
      members

/-- Combine the nodes of a content, if there is one. -/
def foldIn {α : Type} (step : α → Rule → α) (start : α) : Option Rule → α
  | none => start
  | some rule => fold step start rule

/-- Combine the nodes of several trees, one tree after the other. -/
def foldAll {α : Type} (step : α → Rule → α) (start : α) : List Rule → α
  | [] => start
  | rule :: rest => foldAll step (fold step start rule) rest

end

mutual

theorem fold_eq_foldl_nodes {α : Type} (step : α → Rule → α) (start : α) :
    (rule : Rule) → fold step start rule = rule.nodes.foldl step start
  | ⟨_, _, _, content, members, _, _, _⟩ => by
    simp [fold, nodes, foldIn_eq_foldl_nodesIn step _ content,
      foldAll_eq_foldl_nodesOf step _ members]

theorem foldIn_eq_foldl_nodesIn {α : Type} (step : α → Rule → α) (start : α) :
    (content : Option Rule) → foldIn step start content = (nodesIn content).foldl step start
  | none => by simp [foldIn, nodesIn]
  | some rule => by simp [foldIn, nodesIn, fold_eq_foldl_nodes step _ rule]

theorem foldAll_eq_foldl_nodesOf {α : Type} (step : α → Rule → α) (start : α) :
    (rules : List Rule) → foldAll step start rules = (nodesOf rules).foldl step start
  | [] => rfl
  | rule :: rest => by
    simp [foldAll, nodesOf, fold_eq_foldl_nodes step start rule,
      foldAll_eq_foldl_nodesOf step _ rest]

end

/-- The names that the symbols of a tree refer to, last first. -/
def references (rule : Rule) : List String :=
  rule.fold (fun found node => node.symbolName?.toList ++ found) []

mutual

/-- The nodes of a tree, each with the number of nodes above it. -/
def outline (depth : Nat) : Rule → List (Nat × Rule)
  | ⟨kind, value, name, content, members, named, flags, contextName⟩ =>
    (depth, ⟨kind, value, name, content, members, named, flags, contextName⟩) ::
      (outlineIn (depth + 1) content ++ outlineOf (depth + 1) members)

/-- The outline of a content, if there is one. -/
def outlineIn (depth : Nat) : Option Rule → List (Nat × Rule)
  | none => []
  | some rule => outline depth rule

/-- The outlines of several trees, one tree after the other. -/
def outlineOf (depth : Nat) : List Rule → List (Nat × Rule)
  | [] => []
  | rule :: rest => outline depth rule ++ outlineOf depth rest

end

mutual

/-- Equality of trees, part by part. -/
def beq : Rule → Rule → Bool
  | ⟨kind, value, name, content, members, named, flags, contextName⟩,
    ⟨kind', value', name', content', members', named', flags', contextName'⟩ =>
    kind == kind' && value == value' && name == name' && beqContent content content' &&
      beqAll members members' && named == named' && flags == flags' &&
      contextName == contextName'

/-- Equality of contents. -/
def beqContent : Option Rule → Option Rule → Bool
  | none, none => true
  | some rule, some rule' => beq rule rule'
  | _, _ => false

/-- Equality of member lists. -/
def beqAll : List Rule → List Rule → Bool
  | [], [] => true
  | rule :: rest, rule' :: rest' => beq rule rule' && beqAll rest rest'
  | _, _ => false

end

mutual

theorem beq_iff_eq (left right : Rule) : beq left right = true ↔ left = right := by
  match left, right with
  | ⟨kind, value, name, content, members, named, flags, contextName⟩,
    ⟨kind', value', name', content', members', named', flags', contextName'⟩ =>
    simp [beq, beqContent_iff_eq content content', beqAll_iff_eq members members', and_assoc]

theorem beqContent_iff_eq (left right : Option Rule) :
    beqContent left right = true ↔ left = right := by
  match left, right with
  | none, none => simp [beqContent]
  | none, some _ => simp [beqContent]
  | some _, none => simp [beqContent]
  | some rule, some rule' => simp [beqContent, beq_iff_eq rule rule']

theorem beqAll_iff_eq (left right : List Rule) : beqAll left right = true ↔ left = right := by
  match left, right with
  | [], [] => simp [beqAll]
  | [], _ :: _ => simp [beqAll]
  | _ :: _, [] => simp [beqAll]
  | rule :: rest, rule' :: rest' =>
    simp [beqAll, beq_iff_eq rule rule', beqAll_iff_eq rest rest']

end

instance : DecidableEq Rule := fun left right =>
  decidable_of_iff (beq left right = true) (beq_iff_eq left right)

end Rule

end GrammarArtifact
