import GrammarArtifact.Document.Writer
import GrammarArtifact.Rule.Build

/-!
# The shipped grammar

The grammar that loads without any file, and its text as an artifact.
-/

namespace GrammarArtifact.Shipped

open Rule

/-- The name of the shipped grammar. -/
def name : String := "sakurae"

/-- The rules of the shipped grammar. -/
def rules : List (String × Rule) := [
    ("source_file", many (symbol "stmt")),
    ("_field", pattern "[a-zA-Z_][a-zA-Z0-9_]*"),
    ("identifier", symbol "_field"),
    ("comment",
      token <|
        choice [
          seq [string "//", pattern ".*"],
          seq [string "/*", pattern "[^*]*\\*+([^/*][^*]*\\*+)*", string "/"]]),
    ("number", token (pattern "\\d+(\\.\\d+)?[f]?|0[xX][0-9a-fA-F]+|0[bB][01]+|0[oO][0-7]+")),
    ("string", token (seq [string "\"", many (pattern "[^\"\\\\]|\\\\."), string "\""])),
    ("char", token (pattern "'([^'\\\\\\\\]|\\\\.)'")),
    ("boolean", choice [string "true", string "false"]),
    ("literal", choice [symbol "number", symbol "string", symbol "boolean", symbol "char"]),
    ("whole_expr",
      choice [
        symbol "assign_expr", symbol "binary_expr", symbol "logic_expr", symbol "add_expr",
        symbol "mul_expr", symbol "prim_expr"]),
    ("assign_expr",
      precRight 1 <|
        seq [
          symbol "identifier_expr",
          choice [string "=", string "+=", string "-=", string "/=", string "*="],
          symbol "whole_expr"]),
    ("binary_expr",
      precLeft 2 <|
        seq [
          choice [
            symbol "binary_expr", symbol "logic_expr", symbol "add_expr", symbol "mul_expr",
            symbol "prim_expr"],
          choice [string "||", string "&&"], symbol "whole_expr"]),
    ("logic_expr",
      precLeft 3 <|
        seq [
          choice [symbol "logic_expr", symbol "add_expr", symbol "mul_expr", symbol "prim_expr"],
          choice [string "==", string "!=", string ">", string "<", string "<=", string ">="],
          choice [symbol "logic_expr", symbol "add_expr", symbol "mul_expr", symbol "prim_expr"]]),
    ("add_expr",
      precLeft 4 <|
        seq [
          choice [symbol "add_expr", symbol "mul_expr", symbol "prim_expr"],
          choice [string "+", string "-"],
          choice [symbol "add_expr", symbol "mul_expr", symbol "prim_expr"]]),
    ("mul_expr",
      precLeft 5 <|
        seq [
          choice [symbol "mul_expr", symbol "prim_expr"], choice [string "*", string "/"],
          choice [symbol "mul_expr", symbol "prim_expr"]]),
    ("array_expr",
      seq [
        string "[", seq [symbol "whole_expr", many (seq [string ",", symbol "whole_expr"])],
        string "]"]),
    ("prim_expr",
      choice [
        symbol "literal", symbol "identifier_expr",
        seq [string "(", symbol "whole_expr", string ")"]]),
    ("identifier_expr",
      prec 6 <|
        seq [
          choice [choice [string "!", string "++", string "--", string "*", string "&"], blank],
          symbol "atom_identifier_expr", choice [seq [string ".", symbol "identifier"], blank],
          many (choice [string "++", string "--"])]),
    ("atom_identifier_expr",
      seq [
        choice [symbol "identifier", seq [string "(", symbol "identifier_expr", string ")"]],
        many (choice [symbol "index_op", symbol "calling_op"])]),
    ("index_op", seq [string "[", symbol "whole_expr", string "]"]),
    ("calling_op",
      seq [
        string "(",
        choice [
          choice [
            seq [symbol "whole_expr", many (seq [string ",", symbol "whole_expr"])], blank],
          blank],
        string ")"]),
    ("type_modifier",
      seq [
        choice [
          string "i32", string "i64", string "ui32", string "ui64", string "f32", string "f64",
          string "bool", string "char", string "string", symbol "identifier"],
        many (seq [string "[", symbol "number", string "]"]), many (string "*")]),
    ("stmt",
      choice [
        symbol "declare_stmt", symbol "expr_stmt", symbol "block_stmt", symbol "if_stmt",
        symbol "while_stmt", symbol "for_stmt", symbol "func_define_stmt", symbol "return_stmt",
        symbol "break_stmt", symbol "continue_stmt"]),
    ("declare_stmt",
      seq [
        string "let", symbol "identifier",
        choice [seq [string ":", symbol "type_modifier"], blank], string "=",
        symbol "whole_expr", string ";"]),
    ("expr_stmt", seq [choice [symbol "identifier_expr", symbol "assign_expr"], string ";"]),
    ("block_stmt", seq [string "\x7b", many (symbol "stmt"), string "\x7d"]),
    ("if_stmt",
      precRight 0 <|
        seq [
          string "if", string "(", symbol "whole_expr", string ")", symbol "stmt",
          choice [seq [string "else", symbol "stmt"], blank]]),
    ("while_stmt",
      seq [string "while", string "(", symbol "whole_expr", string ")", symbol "stmt"]),
    ("for_stmt",
      seq [
        string "for", string "(", choice [symbol "declare_stmt", blank],
        choice [symbol "whole_expr", blank], string ";", choice [symbol "whole_expr", blank],
        string ")", symbol "stmt"]),
    ("func_define_stmt",
      seq [
        string "func", symbol "identifier", string "(",
        choice [
          seq [
            seq [symbol "identifier", string ":", symbol "type_modifier"],
            many <|
              seq [string ",", seq [symbol "identifier", string ":", symbol "type_modifier"]]],
          blank],
        string ")", string "->", symbol "type_modifier", symbol "block_stmt"]),
    ("return_stmt", seq [string "return", choice [symbol "whole_expr", blank], string ";"]),
    ("break_stmt", seq [string "break", string ";"]),
    ("continue_stmt", seq [string "continue", string ";"])]

/-- The shipped grammar. -/
def grammar : Grammar where
  schema := some "https://tree-sitter.github.io/tree-sitter/assets/schemas/grammar.schema.json"
  name := name
  rules := .ofBindings rules
  extras := [pattern "\\s", symbol "comment"]
  conflicts := [["if_stmt"], ["prim_expr", "atom_identifier_expr"]]
  word := some "_field"

/-- The shipped grammar as an artifact. -/
def text : String := Document.writeGrammar grammar

end GrammarArtifact.Shipped
