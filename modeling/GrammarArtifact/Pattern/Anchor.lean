import GrammarArtifact.Pattern.CharSet

/-!
# Anchors

An anchor is a condition on a place in a text. It depends on the character before
the place and the character after it, which are missing at the ends of the text.
-/

namespace GrammarArtifact.Pattern

/-- Where a place is in relation to words. -/
inductive WordPlace
  | boundary
  | noBoundary
  | start
  | finish
  | startHalf
  | finishHalf
deriving DecidableEq, Repr

/-- Whether a place is where it should be, given whether there are word characters
before and after it. -/
def WordPlace.holds (before after : Bool) : WordPlace → Bool
  | .boundary => before != after
  | .noBoundary => before == after
  | .start => !before && after
  | .finish => before && !after
  | .startHalf => !before
  | .finishHalf => !after

/-- A condition on a place. Lines end with a line feed, or where carriage returns
count also with a carriage return or with both in a row. -/
inductive Anchor
  | textStart
  | textEnd
  | lineStart (returns : Bool)
  | lineEnd (returns : Bool)
  | word (place : WordPlace) (characters : CharSet)
deriving DecidableEq, Repr

namespace Anchor

/-- Whether the condition holds between two characters. -/
def holds (before after : Option Char) : Anchor → Bool
  | .textStart => before.isNone
  | .textEnd => after.isNone
  | .lineStart returns =>
    before.isNone || before == some '\n' ||
      (returns && before == some '\r' && after != some '\n')
  | .lineEnd false => after.isNone || after == some '\n'
  | .lineEnd true =>
    after.isNone || after == some '\r' || (after == some '\n' && before != some '\r')
  | .word place characters =>
    place.holds (before.any characters.contains) (after.any characters.contains)

end Anchor

end GrammarArtifact.Pattern
