import GrammarArtifact.Pattern.Anchor
import GrammarArtifact.Text.Unicode

/-!
# Modes of patterns

Flags within a pattern change what its further characters mean. The mode at a place
holds the flags that are on there. Greed is not part of it, because greed decides
which of several matches is taken and not whether there is one.
-/

namespace GrammarArtifact.Pattern

/-- The flags that are on at a place of a pattern. -/
structure Mode where
  caseless : Bool := false
  manyLines : Bool := false
  dotMatchesAll : Bool := false
  layout : Bool := false
  sevenBits : Bool := false
  returns : Bool := false
deriving DecidableEq, Repr

namespace Mode

/-- The letters of the flags. -/
def letters : List Char := ['i', 'm', 's', 'x', 'u', 'U', 'R']

/-- Turn the flag with a letter on or off. -/
def set (mode : Mode) (on : Bool) (letter : Char) : Mode :=
  if letter = 'i' then { mode with caseless := on }
  else if letter = 'm' then { mode with manyLines := on }
  else if letter = 's' then { mode with dotMatchesAll := on }
  else if letter = 'x' then { mode with layout := on }
  else if letter = 'u' then { mode with sevenBits := !on }
  else if letter = 'R' then { mode with returns := on }
  else mode

/-- Apply flags as they are written: those behind a hyphen are turned off. -/
def apply (mode : Mode) (flags : List Char) : Mode :=
  let off := (flags.dropWhile (· != '-')).drop 1
  let on := flags.takeWhile (· != '-')
  off.foldl (·.set false ·) (on.foldl (·.set true ·) mode)

variable [Text.Unicode]

/-- A set as the mode takes it: with all cases of its characters where case does not
count. -/
def fold (mode : Mode) (set : CharSet) : CharSet :=
  if !mode.caseless then set
  else if mode.sevenBits then (Text.Unicode.caseless set).intersection CharSet.ascii
  else Text.Unicode.caseless set

/-- A set or its complement as the mode takes it. With seven bits there are no
complements, because those would go beyond seven bits. -/
def finish? (mode : Mode) (negated : Bool) (set : CharSet) : Option CharSet :=
  if !negated then some (mode.fold set)
  else if mode.sevenBits then none
  else some (mode.fold set).complement

/-- The set that stands for one character outside of brackets. -/
def literal (mode : Mode) (c : Char) : CharSet :=
  if mode.sevenBits && 0x80 ≤ c.toNat then .single c else mode.fold (.single c)

/-- The set that the dot stands for. -/
def dot? (mode : Mode) : Option CharSet :=
  if mode.sevenBits then none
  else if mode.dotMatchesAll then some .all
  else if mode.returns then some ((CharSet.single '\n').union (CharSet.single '\r')).complement
  else some (CharSet.single '\n').complement

/-- The start of a line, or of the text where lines do not count. -/
def lineStart (mode : Mode) : Anchor :=
  if mode.manyLines then .lineStart mode.returns else .textStart

/-- The end of a line, or of the text where lines do not count. -/
def lineEnd (mode : Mode) : Anchor :=
  if mode.manyLines then .lineEnd mode.returns else .textEnd

/-- The characters that words are made of. -/
def wordCharacters (mode : Mode) : CharSet :=
  if mode.sevenBits then .asciiWord else Text.Unicode.wordCharacters

/-- The set that a letter behind a backslash stands for: digits, blanks or word
characters, or in upper case all others. -/
def shorthand? (mode : Mode) (letter : Char) : Option CharSet :=
  let plain : Option CharSet :=
    if letter = 'd' || letter = 'D' then
      some (if mode.sevenBits then .between '0' '9' else Text.Unicode.decimalDigits)
    else if letter = 's' || letter = 'S' then
      some (if mode.sevenBits then .asciiBlank else Text.blanks)
    else if letter = 'w' || letter = 'W' then some mode.wordCharacters
    else none
  plain.bind fun set =>
    if letter.isLower then some set
    else if mode.sevenBits then none
    else some set.complement

end Mode

end GrammarArtifact.Pattern
