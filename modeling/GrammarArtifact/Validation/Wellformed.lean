import GrammarArtifact.Grammar
import GrammarArtifact.Validation.Fault

/-!
# Well-formed grammars

A grammar is well formed when every node that its kind makes the checks reach has
the parts it needs, and every name that it refers to belongs to a rule or to an
external rule. The checks go through the grammar in a fixed order and stop at the
first fault.
-/

namespace GrammarArtifact.Validation

/-- The names that symbols may refer to. -/
abbrev Scope := Std.TreeSet String

/-- The names of the rules and of the external rules. -/
def scope (grammar : Grammar) : Scope :=
  (grammar.rules.names ++ grammar.externalNames).foldl (·.insert ·) ∅

mutual

/-- The first fault of a rule within a context. Strings and patterns need a text,
symbols a name in scope, choices a member and wrappers a content; a field needs a
name besides, and an alias a text. -/
def faultIn (scope : Scope) (context : String) : Rule → Option Fault
  | ⟨kind, value, name, content, members, _, _, _⟩ =>
    match kind with
    | .blank => none
    | .string | .pattern =>
      match value with
      | some (.text _) => none
      | _ => some (.malformedRule kind context)
    | .symbol =>
      match name with
      | none => some (.malformedRule kind context)
      | some symbol =>
        if scope.contains symbol then none else some (.undefinedSymbol symbol context)
    | .choice =>
      match members with
      | [] => some (.malformedRule kind context)
      | _ :: _ => faultAmong scope context members
    | .seq => faultAmong scope context members
    | .field =>
      match name with
      | none => some (.malformedRule kind context)
      | some _ => faultOfContent scope context kind content
    | .aliased =>
      match value with
      | some (.text _) => faultOfContent scope context kind content
      | _ => some (.malformedRule kind context)
    | .many | .many1 | .prec | .precLeft | .precRight | .precDynamic | .token
    | .immediateToken | .reserved => faultOfContent scope context kind content

/-- The first fault of the content that a wrapper of some kind needs. -/
def faultOfContent (scope : Scope) (context : String) (kind : RuleKind) :
    Option Rule → Option Fault
  | none => some (.missingContent kind context)
  | some rule => faultIn scope context rule

/-- The first fault of several rules within a context. -/
def faultAmong (scope : Scope) (context : String) : List Rule → Option Fault
  | [] => none
  | rule :: rest =>
    match faultIn scope context rule with
    | some fault => some fault
    | none => faultAmong scope context rest

end

/-- The names that sections refer to, in the order in which they are checked. -/
def sectionReferences (grammar : Grammar) : List (Section × String) :=
  grammar.word.toList.map (.word, ·) ++
    grammar.inline.map (.inline, ·) ++
    grammar.supertypes.map (.supertypes, ·) ++
    grammar.conflicts.flatten.map (.conflicts, ·) ++
    (grammar.precedences.flatten.filterMap Rule.symbolName?).map (.precedences, ·)

/-- The first fault of a grammar: in its rules, its extras, the references of its
sections and its reserved words, in this order. -/
def fault? (grammar : Grammar) : Option Fault :=
  if grammar.rules.isEmpty then some .noRules
  else
    let scope := scope grammar
    (grammar.rules.entries.findSome? fun entry => faultIn scope entry.1 entry.2) <|>
      faultAmong scope "extras" grammar.extras <|>
      ((sectionReferences grammar).findSome? fun reference =>
        if scope.contains reference.2 then none
        else some (.unknownReference reference.1 reference.2)) <|>
      grammar.reserved.values.findSome? (faultAmong scope "reserved")

end GrammarArtifact.Validation
