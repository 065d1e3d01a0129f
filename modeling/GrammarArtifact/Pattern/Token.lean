import GrammarArtifact.Pattern.Class

/-!
# Tokens of patterns

The text of a pattern is a row of tokens. Reading them takes the mode at every place
into account, so that a token means the same wherever it stands afterwards. Flags
that are set within a group hold up to the end of that group.
-/

namespace GrammarArtifact.Pattern

/-- A token of a pattern. A character comes with the depth of the brackets around its
description, an opening says whether the group captures what it matches, and a directive
sets flags and matches nothing. -/
inductive Token
  | one (set : CharSet) (brackets : Nat)
  | place (anchor : Anchor)
  | directive
  | opening (captures : Bool)
  | closing
  | bar
  | repetition (least : Nat) (most : Option Nat)
deriving DecidableEq, Repr

/-! ## Repetitions -/

/-- Pass a question mark, which changes the greed of a repetition. -/
def greed (token : Token) : Reader Token := (Reader.optional '?').map fun _ => token

/-- Read the digits of a count. There are none in a text without a digit in front. -/
def countDigits (layout comment : Bool) (value : Option Nat) : Reader (Option Nat)
  | [] => some (.here value)
  | c :: rest =>
    let further (comment : Bool) (value : Option Nat) :=
      (countDigits layout comment value rest).map Taken.behind
    if comment then further (c != '\n') value
    else if layout && Text.isBlank c then further false value
    else if layout && c = '#' then further true value
    else if c.isDigit then further false (some (value.getD 0 * 10 + (c.toNat - '0'.toNat)))
    else some (.here value)

/-- The largest count that a repetition can have. -/
def largestCount : Nat := 4294967295

/-- Read a count. Blanks around it never count. -/
def count (mode : Mode) : Reader Nat :=
  Reader.blanks.bind fun _ =>
    (countDigits mode.layout false none).bind fun value =>
      Reader.blanks.bind fun _ => .lift (value.filter (· ≤ largestCount))

/-- Read the closing brace of a counted repetition, and the mark of greed. -/
def closeCount (mode : Mode) (least : Nat) (most : Option Nat) : Reader Token :=
  Reader.next.bind fun c =>
    if c = '\x7d' && !most.any (· < least) then
      (Reader.layout mode.layout).bind fun _ => greed (.repetition least most)
    else .lift none

/-- Read a counted repetition from behind its opening brace: one count, or a lower
bound and a comma, or two bounds. -/
def countedRepetition (mode : Mode) : Reader Token :=
  (Reader.layout mode.layout).bind fun _ =>
    (count mode).bind fun least =>
      (Reader.optional ',').bind fun comma =>
        if comma then
          (Reader.layout mode.layout).bind fun _ =>
            (Reader.ahead '\x7d').bind fun unbounded =>
              if unbounded then closeCount mode least none
              else (count mode).bind fun most => closeCount mode least (some most)
        else closeCount mode least (some least)

variable [Text.Unicode]

/-! ## Groups -/

/-- How a group opens. Behind a directive no group opens at all. -/
inductive Head
  | plain
  | named (name : List Char)
  | flagged (flags : List Char)
  | directive (flags : List Char)
deriving DecidableEq, Repr

/-- Read flags up to the colon of a group or to the end of a directive. Each flag
and the hyphen can be there once, and the hyphen is not the last of them. A directive
has at least one flag. What has been read is held last first. -/
def flags (read : List Char) : Reader Head
  | [] => none
  | c :: rest =>
    if c = ':' then
      if read.head? = some '-' then none
      else some (.next (.flagged read.reverse))
    else if c = ')' then
      if read.head? = some '-' || read.isEmpty then none
      else some (.next (.directive read.reverse))
    else if (c = '-' || Mode.letters.contains c) && !read.contains c then
      (flags (c :: read) rest).map Taken.behind
    else none

/-- Whether a character can stand at the beginning of the name of a group. -/
def beginsGroupName (c : Char) : Bool := c = '_' || Text.isAlphabetic c

/-- Whether a character can stand in the name of a group. -/
def continuesGroupName (c : Char) : Bool :=
  beginsGroupName c || c = '.' || c = '[' || c = ']' || Text.isNumeric c

/-- Read the name of a group. No other group has the same name. -/
def groupName (taken : List (List Char)) : Reader Head :=
  (Reader.upTo '>' []).bind fun name =>
    .lift (if name.head?.any beginsGroupName && name.all continuesGroupName &&
      !taken.contains name then some (.named name) else none)

/-- Read the opening of a group from behind its parenthesis. Groups that look ahead or
behind are refused, because no name begins as they do. -/
def head (mode : Mode) (names : List (List Char)) : Reader Head :=
  (Reader.layout mode.layout).bind fun _ =>
    (Reader.optional '?').bind fun marked =>
      if marked then
        (Reader.optional 'P').bind fun long =>
          (Reader.optional '<').bind fun named =>
            if named then groupName names
            else if long then .lift none
            else flags []
      else .lift (some .plain)

/-! ## Rows of tokens -/

/-- The token that an escape stands for. -/
def Token.ofEscape (mode : Mode) : Escape → Token
  | .literal c => .one (mode.literal c) 0
  | .set set => .one set 0
  | .place anchor => .place anchor

/-- Read a token that neither opens nor closes a group, whose first character has
been passed. -/
def plainToken (mode : Mode) (first : Char) : Reader Token :=
  if first = '|' then .lift (some .bar)
  else if first = '?' then greed (.repetition 0 (some 1))
  else if first = '*' then greed (.repetition 0 none)
  else if first = '+' then greed (.repetition 1 none)
  else if first = '\x7b' then countedRepetition mode
  else if first = '[' then
    (bracketClass mode).map fun written => .one written.set written.depth
  else if first = '.' then .lift (mode.dot?.map fun set => .one set 0)
  else if first = '^' then .lift (some (.place mode.lineStart))
  else if first = '$' then .lift (some (.place mode.lineEnd))
  else if first = '\\' then (escape mode).map (Token.ofEscape mode)
  else .lift (some (.one (mode.literal first) 0))

/-- What is read of a pattern at a time. -/
inductive Lexeme
  | opening (head : Head)
  | closing
  | token (token : Token)
deriving DecidableEq, Repr

/-- What a place of a pattern is within: the mode there, the modes to return to when
groups end, innermost first, and the names of groups so far. -/
structure Context where
  mode : Mode := {}
  outer : List Mode := []
  names : List (List Char) := []
deriving DecidableEq, Repr

/-- Read the next lexeme. -/
def lexeme (context : Context) : Reader Lexeme :=
  .counted context.mode.layout fun c =>
    if c = '(' then (head context.mode context.names).map .opening
    else if c = ')' then .lift (some .closing)
    else (plainToken context.mode c).map .token

/-- The token that a lexeme makes, and the context behind it. A closing needs a group. -/
def Context.after? (context : Context) : Lexeme → Option (Token × Context)
  | .opening .plain =>
    some (.opening true, { context with outer := context.mode :: context.outer })
  | .opening (.named name) =>
    some (.opening true, { context with
      outer := context.mode :: context.outer
      names := name :: context.names })
  | .opening (.flagged flags) =>
    some (.opening false, { context with
      mode := context.mode.apply flags
      outer := context.mode :: context.outer })
  | .opening (.directive flags) =>
    some (.directive, { context with mode := context.mode.apply flags })
  | .closing =>
    match context.outer with
    | [] => none
    | mode :: outer => some (.closing, { context with mode, outer })
  | .token token => some (token, context)

/-- Read the tokens of a pattern within a context. -/
def tokens? (context : Context) (text : List Char) : Option (List Token) :=
  if (skip context.mode.layout text).isEmpty then some []
  else
    match read : lexeme context text with
    | none => none
    | some lexeme =>
      have : lexeme.rest.length < text.length := Reader.length_lt_of_counted read
      match context.after? lexeme.value with
      | none => none
      | some (token, context) => (tokens? context lexeme.rest).map (token :: ·)
termination_by text.length

end GrammarArtifact.Pattern
