/-!
# Compiled parsers

A compiled parser describes itself by a header of nine words. The first word is the
version of its interface. A shared library makes parsers available by functions that
have a name and return the header of a parser, or nothing.
-/

namespace GrammarArtifact

/-- The header of a compiled parser. -/
structure ParserHeader where
  version : UInt32
  symbols : UInt32
  aliases : UInt32
  tokens : UInt32
  externalTokens : UInt32
  states : UInt32
  largeStates : UInt32
  productions : UInt32
  fields : UInt32
deriving DecidableEq, Repr

namespace ParserHeader

/-- The largest count, which stands for all that would exceed it. -/
def largestCount : Nat := 18446744073709551615

/-- The number of node kinds that a compiled parser knows, aliases included. -/
def kindCount (header : ParserHeader) : Nat :=
  min (header.symbols.toNat + header.aliases.toNat) largestCount

/-- Two words can never add up to more than a count can be. -/
theorem kindCount_eq_add (header : ParserHeader) :
    header.kindCount = header.symbols.toNat + header.aliases.toNat := by
  have symbols := header.symbols.toNat_lt
  have aliases := header.aliases.toNat_lt
  rw [kindCount, largestCount]
  omega

end ParserHeader

/-- The interface versions from one to another. There are none when the first is
greater than the last. -/
structure VersionRange where
  first : UInt32
  last : UInt32
deriving DecidableEq, Repr

namespace VersionRange

/-- The versions that parsers may have unless something else is asked for. -/
def standard : VersionRange := ⟨13, 15⟩

/-- Whether a version lies in the range. -/
def contains (range : VersionRange) (version : UInt32) : Bool :=
  range.first ≤ version && version ≤ range.last

end VersionRange

/-- A shared library, by the functions it makes available. -/
structure Library where
  functions : List (String × Option ParserHeader)
deriving DecidableEq, Repr

namespace Library

/-- The name that a function is looked up by. One zero character at the end closes
the name and is no part of it, and no zero character may stand anywhere else. -/
def lookupName? (name : String) : Option String :=
  let characters := name.toList
  let closed := if characters.getLast? = some '\x00' then characters.dropLast else characters
  if closed.contains '\x00' then none else some (String.ofList closed)

/-- What the function with a name returns, if there is such a function. -/
def function? (library : Library) (name : String) : Option (Option ParserHeader) :=
  (lookupName? name).bind fun name => library.functions.lookup name

/-- The name of the function that returns the parser of a grammar. -/
def functionName (grammar : String) : String :=
  "tree_sitter_" ++ String.ofList (grammar.toList.map fun c => if c = '-' then '_' else c)

end Library

end GrammarArtifact
