import GrammarArtifact.Document.Record
import GrammarArtifact.Grammar

/-!
# Grammar documents

How rules and grammars are written in documents. Every bracket that is opened for a
value counts towards the nesting limit, except inside values that are passed over.
A reader of nested values is therefore given the number of brackets that may still
be opened, and it recurses on that number.
-/

namespace GrammarArtifact.Document

/-- How many brackets may be open at a time. -/
def nestingLimit : Nat := 127

/-! ## Rules -/

/-- The keys of a rule. -/
inductive RuleKey
  | kind
  | value
  | name
  | content
  | members
  | named
  | flags
  | contextName
deriving DecidableEq, Repr

/-- The form of a rule: only its kind is required. -/
def ruleForm : RecordForm RuleKey where
  name := "Rule"
  keys := [.kind, .value, .name, .content, .members, .named, .flags, .contextName]
  label
    | .kind => "type"
    | .value => "value"
    | .name => "name"
    | .content => "content"
    | .members => "members"
    | .named => "named"
    | .flags => "flags"
    | .contextName => "context_name"
  required key := key = .kind

/-- Read the name of a kind from its quote on. -/
def kindName : Reader RuleKind := fun text =>
  match Reader.quoted text with
  | .error fault => .error fault
  | .ok read =>
    match RuleKind.ofTag? read.value with
    | some kind => .ok (read.map fun _ => kind)
    | none => .error (.kindUnknown read.value)

/-- Read the name of a kind as the key of an object that has been opened. -/
def kindKey : Reader RuleKind := Reader.afterSpace fun text =>
  match text with
  | [] => .error (.ended .object)
  | c :: rest => if c = '"' then kindName (c :: rest) else .error .keyExpected

/-- Read the closing brace of an object that must have no further member. -/
def closeSingle : Reader Unit := Reader.afterSpace fun text =>
  match text with
  | [] => .error (.ended .object)
  | c :: _ => if c = '\x7d' then .ok (.next ()) else .error .valueExpected

/-- Read a kind: its name, or an object that binds its name to `null` and holds
nothing else. -/
def ruleKind (depth : Nat) : Reader RuleKind := Reader.afterSpace fun text =>
  match text with
  | [] => .error (.ended .value)
  | '"' :: rest => kindName ('"' :: rest)
  | '\x7b' :: rest =>
    if depth = 0 then .error .tooDeep
    else
      match Reader.andThen kindKey (fun kind =>
          Reader.andThen Reader.colon fun _ =>
            Reader.andThen Reader.unit fun _ => Reader.map (fun _ => kind) closeSingle) rest with
      | .error fault => .error fault
      | .ok read => .ok read.behind
  | _ => .error .valueExpected

/-- What is kept of a value of any form: a number, a string, or just that it is
neither. -/
inductive Loose
  | number (value : Number)
  | string (text : String)
  | other
deriving DecidableEq, Repr

/-- Read a value of any form, in which every part has to be well formed. -/
def loose (depth : Nat) (text : List Char) : Except Fault (Read Loose text) :=
  Reader.afterSpace (fun front =>
    match front with
    | [] => .error (.ended .value)
    | '[' :: rest =>
      match depth with
      | 0 => .error .tooDeep
      | inner + 1 =>
        match Reader.items (loose inner) rest true [] rest (Text.length_le_self rest) with
        | .error fault => .error fault
        | .ok read => .ok (read.map fun _ => .other).behind
    | '\x7b' :: rest =>
      match depth with
      | 0 => .error .tooDeep
      | inner + 1 =>
        let member (kept : Loose) (_ : String) : Reader Loose :=
          Reader.andThen Reader.colon fun _ => Reader.map (fun _ => kept) (loose inner)
        (Reader.members member rest true .other rest (Text.length_le_self rest)).map Read.behind
    | c :: rest =>
      if c = 'n' then Reader.word ['u', 'l', 'l'] .other (c :: rest)
      else if c = 't' then Reader.word ['r', 'u', 'e'] .other (c :: rest)
      else if c = 'f' then Reader.word ['a', 'l', 's', 'e'] .other (c :: rest)
      else if c = '-' || isDigit c then Reader.map .number Reader.number (c :: rest)
      else if c = '"' then Reader.map .string Reader.quoted (c :: rest)
      else .error .valueExpected) text

/-- The rule value that a value of any form stands for: an integer that fits a signed
32-bit word, or a string. -/
def ruleValue? : Loose → Option RuleValue
  | .number (.integer value) =>
    if Int32.minValue.toInt ≤ value ∧ value ≤ Int32.maxValue.toInt then
      some (.level (Int32.ofInt value))
    else none
  | .number (.real _ _) => none
  | .string text => some (.text text)
  | .other => none

/-- Read a rule value. -/
def ruleValue (depth : Nat) : Reader RuleValue := fun text =>
  match loose depth text with
  | .error fault => .error fault
  | .ok read =>
    match ruleValue? read.value with
    | some value => .ok (read.map fun _ => value)
    | none => .error .valueFormUnknown

/-- Read the value of one key into a rule, given the readers of its content and of
its members. -/
def ruleField (depth : Nat) (content : Reader Rule) (members : Option (Reader Rule)) :
    RuleKey → Rule → Reader Rule
  | .kind, rule => Reader.map (fun kind => { rule with kind }) (ruleKind depth)
  | .value, rule =>
    Reader.map (fun value => { rule with value }) (Reader.optional (ruleValue depth))
  | .name, rule => Reader.map (fun name => { rule with name }) (Reader.optional Reader.string)
  | .content, rule =>
    Reader.map (fun content => { rule with content }) (Reader.optional content)
  | .members, rule => Reader.map (fun members => { rule with members }) (Reader.list members)
  | .named, rule =>
    Reader.map (fun named => { rule with named }) (Reader.optional Reader.boolean)
  | .flags, rule =>
    Reader.map (fun flags => { rule with flags }) (Reader.optional Reader.string)
  | .contextName, rule =>
    Reader.map (fun contextName => { rule with contextName }) (Reader.optional Reader.string)

/-- Read a rule, with a number of brackets that may still be opened. -/
def rule (depth : Nat) (text : List Char) : Except Fault (Read Rule text) :=
  match depth with
  | 0 => ruleForm.read none default text
  | 1 => ruleForm.read (some (ruleField 0 (rule 0) none)) default text
  | inner + 2 =>
    ruleForm.read (some (ruleField (inner + 1) (rule (inner + 1)) (some (rule inner))))
      default text

/-! ## Grammars -/

/-- The keys of a grammar. -/
inductive GrammarKey
  | schema
  | name
  | inherits
  | rules
  | extras
  | externals
  | inline
  | precedences
  | conflicts
  | reserved
  | word
  | supertypes
deriving DecidableEq, Repr

/-- The form of a grammar: its name and its rules are required. -/
def grammarForm : RecordForm GrammarKey where
  name := "Grammar"
  keys := [.schema, .name, .inherits, .rules, .extras, .externals, .inline, .precedences,
    .conflicts, .reserved, .word, .supertypes]
  label
    | .schema => "$schema"
    | .name => "name"
    | .inherits => "inherits"
    | .rules => "rules"
    | .extras => "extras"
    | .externals => "externals"
    | .inline => "inline"
    | .precedences => "precedences"
    | .conflicts => "conflicts"
    | .reserved => "reserved"
    | .word => "word"
    | .supertypes => "supertypes"
  required key := key = .name || key = .rules

/-- The bindings of an object as a table. -/
def table {α : Type} (value : Option (Reader α)) : Reader (Table α) :=
  Reader.map (fun bindings => Table.ofBindings bindings.reverse) (Reader.bindings value)

/-- Read the value of one key into a grammar. The brackets of the grammar and of the
section around a rule are open, and in two sections the bracket of a group too. -/
def grammarField : GrammarKey → Grammar → Reader Grammar
  | .schema, grammar =>
    Reader.map (fun schema => { grammar with schema }) (Reader.optional Reader.string)
  | .name, grammar => Reader.map (fun name => { grammar with name }) Reader.string
  | .inherits, grammar =>
    Reader.map (fun inherits => { grammar with inherits }) (Reader.optional Reader.string)
  | .rules, grammar =>
    Reader.map (fun rules => { grammar with rules }) (table (some (rule (nestingLimit - 2))))
  | .extras, grammar =>
    Reader.map (fun extras => { grammar with extras })
      (Reader.list (some (rule (nestingLimit - 2))))
  | .externals, grammar =>
    Reader.map (fun externals => { grammar with externals })
      (Reader.list (some (rule (nestingLimit - 2))))
  | .inline, grammar =>
    Reader.map (fun inline => { grammar with inline }) (Reader.list (some Reader.string))
  | .precedences, grammar =>
    Reader.map (fun precedences => { grammar with precedences })
      (Reader.list (some (Reader.list (some (rule (nestingLimit - 3))))))
  | .conflicts, grammar =>
    Reader.map (fun conflicts => { grammar with conflicts })
      (Reader.list (some (Reader.list (some Reader.string))))
  | .reserved, grammar =>
    Reader.map (fun reserved => { grammar with reserved })
      (table (some (Reader.list (some (rule (nestingLimit - 3))))))
  | .word, grammar =>
    Reader.map (fun word => { grammar with word }) (Reader.optional Reader.string)
  | .supertypes, grammar =>
    Reader.map (fun supertypes => { grammar with supertypes })
      (Reader.list (some Reader.string))

/-- Read a grammar. -/
def grammar : Reader Grammar :=
  grammarForm.read (some grammarField) { name := "", rules := .empty }

/-! ## Whole documents -/

/-- Read a document that holds one value and nothing but spaces around it. -/
def readAll {α : Type} (reader : Reader α) (text : String) : Except Fault α :=
  match reader text.toList with
  | .error fault => .error fault
  | .ok read => if (skipSpace read.rest).isEmpty then .ok read.value else .error .trailingText

/-- The grammar that a document describes. -/
def readGrammar (text : String) : Except Fault Grammar := readAll grammar text

/-- The rule that a document describes. -/
def readRule (text : String) : Except Fault Rule := readAll (rule nestingLimit) text

end GrammarArtifact.Document
