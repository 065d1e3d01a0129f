import GrammarArtifact.Grammar
import GrammarArtifact.Text.Quoted

/-!
# Writing grammar documents

The text of a grammar, laid out with two spaces for each open bracket and one member
or element to a line. Keys that hold nothing are left out of rules; of the sections
of a grammar only those that name a single thing are.
-/

namespace GrammarArtifact.Document

/-- The written form of one character of a string. -/
def writeChar (c : Char) : List Char :=
  if c = '"' then ['\\', '"']
  else if c = '\\' then ['\\', '\\']
  else if c = '\n' then ['\\', 'n']
  else if c = '\r' then ['\\', 'r']
  else if c = '\t' then ['\\', 't']
  else if c.toNat < 0x20 then
    ['\\', 'u', '0', '0', Nat.digitChar (c.toNat / 16), Nat.digitChar (c.toNat % 16)]
  else [c]

/-- The written form of a string. -/
def writeString (text : String) : List Char :=
  '"' :: (text.toList.flatMap writeChar ++ ['"'])

/-- A line end and the indentation of the next line. -/
def newLine (indent : Nat) : List Char := '\n' :: List.replicate (2 * indent) ' '

/-- Pieces on lines of their own between two brackets, or just the brackets. -/
def enclose (opening closing : Char) (indent : Nat) : List (List Char) → List Char
  | [] => [opening, closing]
  | piece :: pieces =>
    opening :: (newLine (indent + 1) ++ piece ++
      pieces.flatMap (fun next => ',' :: (newLine (indent + 1) ++ next)) ++
      newLine indent ++ [closing])

/-- The written form of a list of written values. -/
def writeList (indent : Nat) (items : List (List Char)) : List Char :=
  enclose '[' ']' indent items

/-- The written form of an object of keys and written values. -/
def writeObject (indent : Nat) (members : List (String × List Char)) : List Char :=
  enclose '\x7b' '\x7d' indent
    (members.map fun member => writeString member.1 ++ ':' :: ' ' :: member.2)

/-- The written form of a precedence level or a text. -/
def writeValue : RuleValue → List Char
  | .level number => (toString number.toInt).toList
  | .text text => writeString text

mutual

/-- The written form of a rule inside a number of open brackets. -/
def writeRule (indent : Nat) : Rule → List Char
  | ⟨kind, value, name, content, members, named, flags, contextName⟩ =>
    writeObject indent <|
      [("type", writeString kind.tag)] ++
      (value.map fun value => ("value", writeValue value)).toList ++
      (name.map fun name => ("name", writeString name)).toList ++
      writeContent (indent + 1) content ++
      (match members with
        | [] => []
        | member :: rest =>
          [("members", writeList (indent + 1) (writeRules (indent + 2) (member :: rest)))]) ++
      (named.map fun named => ("named", (toString named).toList)).toList ++
      (flags.map fun flags => ("flags", writeString flags)).toList ++
      (contextName.map fun name => ("context_name", writeString name)).toList

/-- The member that holds the content of a rule, if there is one. -/
def writeContent (indent : Nat) : Option Rule → List (String × List Char)
  | none => []
  | some rule => [("content", writeRule indent rule)]

/-- The written forms of several rules. -/
def writeRules (indent : Nat) : List Rule → List (List Char)
  | [] => []
  | rule :: rest => writeRule indent rule :: writeRules indent rest

end

/-- The written form of a grammar. -/
def writeGrammar (grammar : Grammar) : String :=
  let optional (key : String) (text : Option String) : List (String × List Char) :=
    (text.map fun text => (key, writeString text)).toList
  let names (indent : Nat) (names : List String) : List Char :=
    writeList indent (names.map writeString)
  let rules (indent : Nat) (rules : List Rule) : List Char :=
    writeList indent (writeRules (indent + 1) rules)
  String.ofList <| (writeObject 0 <|
    optional "$schema" grammar.schema ++
    [("name", writeString grammar.name)] ++
    optional "inherits" grammar.inherits ++
    optional "word" grammar.word ++
    [("rules", writeObject 1
        (grammar.rules.entries.map fun entry => (entry.1, writeRule 2 entry.2))),
      ("extras", rules 1 grammar.extras),
      ("conflicts", writeList 1 (grammar.conflicts.map (names 2))),
      ("precedences", writeList 1 (grammar.precedences.map (rules 2))),
      ("externals", rules 1 grammar.externals),
      ("inline", names 1 grammar.inline),
      ("supertypes", names 1 grammar.supertypes),
      ("reserved", writeObject 1
        (grammar.reserved.entries.map fun entry => (entry.1, rules 2 entry.2)))]) ++ ['\n']

end GrammarArtifact.Document
