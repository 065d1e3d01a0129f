import GrammarArtifact.Proofs.Document.Accepting
import GrammarArtifact.Proofs.Document.Lexemes

/-!
# Layouts of trees

`Opens` says that a text begins with some tokens, with spaces before each of them. A text
begins with the tokens of one tree at most: the first character of a tree tells of what form
it is, strings and brackets close themselves, and what follows an element or a member ends
the number that it may be. So a document is a layout of one tree only, and a statement about
the tree of a document is a statement about the document.
-/

namespace GrammarArtifact.Document

open Value (comma)

variable {text rest : List Char} {tokens more : List (List Char)}

/-- A text begins with some tokens, each behind spaces, and goes on with the rest. -/
def Opens : List (List Char) → List Char → List Char → Prop
  | [], text, rest => text = rest
  | token :: tokens, text, rest =>
    ∃ behind, skipSpace text = token ++ behind ∧ Opens tokens behind rest

theorem opens_append :
    Opens (tokens ++ more) text rest ↔
      ∃ middle, Opens tokens text middle ∧ Opens more middle rest := by
  induction tokens generalizing text with
  | nil => simp [Opens]
  | cons token tokens induction =>
    simp only [List.cons_append, Opens, induction]
    constructor
    · rintro ⟨behind, found, middle, front, later⟩
      exact ⟨middle, ⟨behind, found, front⟩, later⟩
    · rintro ⟨middle, ⟨behind, found, front⟩, later⟩
      exact ⟨behind, found, middle, front, later⟩

/-- A single token stands behind spaces. -/
@[simp]
theorem opens_singleton {token : List Char} :
    Opens [token] text rest ↔ skipSpace text = token ++ rest := by
  simp [Opens]

/-- A layout begins with all the tokens, and nothing but spaces is left. -/
theorem laidOut_iff_opens :
    LaidOut tokens text ↔ ∃ rest, Opens tokens text rest ∧ skipSpace rest = [] := by
  induction tokens generalizing text with
  | nil => simp [LaidOut, Opens]
  | cons token tokens induction =>
    simp only [LaidOut, Opens, induction]
    constructor
    · rintro ⟨behind, found, rest, opens, spaces⟩
      exact ⟨rest, ⟨behind, found, opens⟩, spaces⟩
    · rintro ⟨rest, ⟨behind, found, opens⟩, spaces⟩
      exact ⟨behind, found, rest, opens, spaces⟩

/-- Spaces in front of the first token do not matter. -/
theorem opens_skipSpace (some : tokens ≠ []) :
    Opens tokens (skipSpace text) rest ↔ Opens tokens text rest := by
  cases tokens with
  | nil => exact absurd rfl some
  | cons token tokens => simp [Opens, skipSpace_skipSpace]

/-- What stands behind a token depends on the token only. -/
theorem token_unique {token rest' : List Char} (opens : Opens [token] text rest)
    (opens' : Opens [token] text rest') : rest = rest' :=
  List.append_cancel_left ((opens_singleton.mp opens).symm.trans (opens_singleton.mp opens'))

/-- A comma, if there has to be one, leads to the tokens behind it. -/
theorem opens_comma {first : Bool} (some : tokens ≠ []) :
    Opens (comma first ++ tokens) text rest ↔
      ∃ front, Reader.Leads first text front ∧ Opens tokens front rest := by
  cases first with
  | true => simp [comma, Reader.Leads, opens_skipSpace some]
  | false => simp [comma, Opens, Reader.Leads]

/-- There is one place that a comma leads to. -/
theorem leads_unique {first : Bool} {front front' : List Char}
    (leads : Reader.Leads first text front) (leads' : Reader.Leads first text front') :
    front = front' := by
  cases first with
  | true => exact leads.symm.trans leads'
  | false => exact (List.cons.inj (leads.symm.trans leads')).2

namespace Tree

/-- A property holds of all trees if it is passed on from the values inside of lists and
objects. -/
theorem induction {motive : Tree → Prop} (null : motive .null)
    (flag : ∀ value, motive (.flag value)) (number : ∀ numeral, motive (.number numeral))
    (string : ∀ quoted, motive (.string quoted))
    (list : ∀ items, (∀ item ∈ items, motive item) → motive (.list items))
    (object : ∀ members, (∀ member ∈ members, motive member.2) → motive (.object members)) :
    ∀ tree, motive tree
  | .null => null
  | .flag value => flag value
  | .number numeral => number numeral
  | .string quoted => string quoted
  | .list items =>
    list items fun item _ => induction null flag number string list object item
  | .object members =>
    object members fun member _ => induction null flag number string list object member.2
decreasing_by
  · have := List.sizeOf_lt_of_mem ‹item ∈ items›
    simp only [Tree.list.sizeOf_spec]
    omega
  · have := List.sizeOf_lt_of_mem ‹member ∈ members›
    have : sizeOf member = 1 + sizeOf member.1 + sizeOf member.2 := by cases member; rfl
    simp only [Tree.object.sizeOf_spec]
    omega

/-! ## First characters -/

/-- A tree can begin with a character. -/
def Begins : Tree → Char → Prop
  | .null, c => c = 'n'
  | .flag true, c => c = 't'
  | .flag false, c => c = 'f'
  | .number _, c => c = '-' ∨ isDigit c = true
  | .string _, c => c = '"'
  | .list _, c => c = '['
  | .object _, c => c = '\x7b'

/-- The first token of a tree begins with such a character. -/
theorem exists_tokens_eq_cons (tree : Tree) :
    ∃ c tail later, tree.tokens = (c :: tail) :: later ∧ tree.Begins c := by
  match tree with
  | .null => exact ⟨'n', _, _, rfl, rfl⟩
  | .flag true => exact ⟨'t', _, _, rfl, rfl⟩
  | .flag false => exact ⟨'f', _, _, rfl, rfl⟩
  | .number numeral =>
    obtain ⟨c, tail, same, begins⟩ := numeral.exists_token_eq_cons
    exact ⟨c, tail, [], by rw [tokens, same], begins⟩
  | .string quoted => exact ⟨'"', _, _, rfl, rfl⟩
  | .list items => exact ⟨'[', _, _, rfl, rfl⟩
  | .object members => exact ⟨'\x7b', _, _, rfl, rfl⟩

theorem tokens_ne_nil (tree : Tree) : tree.tokens ≠ [] := by
  obtain ⟨_, _, _, same, -⟩ := tree.exists_tokens_eq_cons
  simp [same]

/-- A text that begins with a tree begins with a character that the tree can begin with. -/
theorem exists_begins {tree : Tree} (opens : Opens tree.tokens text rest) :
    ∃ c tail, skipSpace text = c :: tail ∧ tree.Begins c := by
  obtain ⟨c, tail, later, same, begins⟩ := tree.exists_tokens_eq_cons
  rw [same] at opens
  obtain ⟨behind, found, -⟩ := opens
  exact ⟨c, tail ++ behind, found, begins⟩

/-- No tree begins with a character that closes or separates. -/
theorem Begins.ne {tree : Tree} {c : Char} (begins : tree.Begins c) :
    c ≠ ']' ∧ c ≠ '\x7d' ∧ c ≠ ',' := by
  match tree, begins with
  | .number _, begins =>
    exact ⟨ne_of_number begins (by decide), ne_of_number begins (by decide),
      ne_of_number begins (by decide)⟩
  | .null, rfl | .flag true, rfl | .flag false, rfl | .string _, rfl | .list _, rfl
  | .object _, rfl => decide

/-- Two trees are of the same form: equal words, two numbers, two strings, two lists or two
objects. -/
inductive SameForm : Tree → Tree → Prop
  | null : SameForm .null .null
  | flag (value : Bool) : SameForm (.flag value) (.flag value)
  | number (numeral other : Numeral) : SameForm (.number numeral) (.number other)
  | string (quoted other : Quoted) : SameForm (.string quoted) (.string other)
  | list (items others : List Tree) : SameForm (.list items) (.list others)
  | object (members others : List (Quoted × Tree)) : SameForm (.object members) (.object others)

/-- The first character of a tree tells its form. -/
theorem Begins.sameForm {tree : Tree} (other : Tree) {c : Char} (begins : tree.Begins c)
    (begins' : other.Begins c) : SameForm tree other := by
  have number {d : Char} (start : c = '-' ∨ isDigit c = true) (other : d ≠ '-' ∧ isDigit d = false)
      (same : c = d) : False :=
    ne_of_number start other same
  match tree, other with
  | .null, .null => exact .null
  | .flag true, .flag true => exact .flag true
  | .flag false, .flag false => exact .flag false
  | .number numeral, .number other => exact .number numeral other
  | .string quoted, .string other => exact .string quoted other
  | .list items, .list others => exact .list items others
  | .object members, .object others => exact .object members others
  | .number _, .null | .number _, .flag true | .number _, .flag false | .number _, .string _
  | .number _, .list _ | .number _, .object _ => exact (number begins (by decide) begins').elim
  | .null, .number _ | .flag true, .number _ | .flag false, .number _ | .string _, .number _
  | .list _, .number _ | .object _, .number _ => exact (number begins' (by decide) begins).elim
  | .null, .flag true | .null, .flag false | .null, .string _ | .null, .list _
  | .null, .object _ | .flag true, .null | .flag true, .flag false | .flag true, .string _
  | .flag true, .list _ | .flag true, .object _ | .flag false, .null | .flag false, .flag true
  | .flag false, .string _ | .flag false, .list _ | .flag false, .object _ | .string _, .null
  | .string _, .flag true | .string _, .flag false | .string _, .list _ | .string _, .object _
  | .list _, .null | .list _, .flag true | .list _, .flag false | .list _, .string _
  | .list _, .object _ | .object _, .null | .object _, .flag true | .object _, .flag false
  | .object _, .string _ | .object _, .list _ =>
    exact absurd (begins.symm.trans begins') (by decide)

theorem sameForm_of_opens {tree other : Tree} {rest' : List Char}
    (opens : Opens tree.tokens text rest) (opens' : Opens other.tokens text rest') :
    SameForm tree other := by
  obtain ⟨c, tail, found, begins⟩ := exists_begins opens
  obtain ⟨c', tail', found', begins'⟩ := exists_begins opens'
  obtain ⟨rfl, -⟩ := List.cons.inj (found.symm.trans found')
  exact begins.sameForm other begins'

/-! ## Elements and members -/

/-- A text that goes on with elements begins with the first of them, behind its comma. -/
theorem opens_tokensOf_cons {first : Bool} {item : Tree} {items : List Tree} :
    Opens (tokensOf first (item :: items) ++ more) text rest ↔
      ∃ front middle, Reader.Leads first text front ∧ Opens item.tokens front middle ∧
        Opens (tokensOf false items ++ more) middle rest := by
  rw [tokensOf, List.append_assoc, List.append_assoc,
    opens_comma (List.append_ne_nil_of_left_ne_nil item.tokens_ne_nil _)]
  refine exists_congr fun front => ?_
  rw [opens_append, exists_and_left]

/-- A text that goes on with members begins with the first of them, behind its comma. -/
theorem opens_tokensIn_cons {first : Bool} {key : Quoted} {value : Tree}
    {members : List (Quoted × Tree)} :
    Opens (tokensIn first ((key, value) :: members) ++ more) text rest ↔
      ∃ front after middle, Reader.Leads first text front ∧
        skipSpace front = '"' :: (key.inside ++ '"' :: after) ∧
          Opens ([':'] :: value.tokens) after middle ∧
            Opens (tokensIn false members ++ more) middle rest := by
  rw [tokensIn, List.append_assoc, opens_comma (by simp)]
  simp only [List.cons_append, List.append_assoc]
  constructor
  · rintro ⟨front, leads, after, found, opens⟩
    rw [← List.cons_append, opens_append] at opens
    obtain ⟨middle, opens, later⟩ := opens
    exact ⟨front, after, middle, leads, by simpa [Quoted.token] using found, opens, later⟩
  · rintro ⟨front, after, middle, leads, found, opens, later⟩
    refine ⟨front, leads, after, by simpa [Quoted.token] using found, ?_⟩
    rw [← List.cons_append, opens_append]
    exact ⟨middle, opens, later⟩

/-- What follows an element of a list ends it. -/
theorem ends_of_opens_tokensOf {items : List Tree}
    (opens : Opens (tokensOf false items ++ [[']']]) text rest) : Ends text := by
  refine ends_of_skipSpace fun c tail found => ?_
  cases items with
  | nil =>
    obtain ⟨_, closed, -⟩ := opens
    simp [(List.cons.inj (found.symm.trans closed)).1]
  | cons item items =>
    obtain ⟨front, -, comma, -⟩ := opens_tokensOf_cons.mp opens
    simp [(List.cons.inj (found.symm.trans comma)).1]

/-- What follows a member of an object ends it. -/
theorem ends_of_opens_tokensIn {members : List (Quoted × Tree)}
    (opens : Opens (tokensIn false members ++ [['\x7d']]) text rest) : Ends text := by
  refine ends_of_skipSpace fun c tail found => ?_
  match members with
  | [] =>
    obtain ⟨_, closed, -⟩ := opens
    simp [(List.cons.inj (found.symm.trans closed)).1]
  | (_, _) :: _ =>
    obtain ⟨front, -, -, comma, -⟩ := opens_tokensIn_cons.mp opens
    simp [(List.cons.inj (found.symm.trans comma)).1]

/-- An element does not begin where a list closes. -/
theorem not_closed_of_leads {first : Bool} {front tail : List Char} {item : Tree}
    {middle : List Char} (leads : Reader.Leads first text front)
    (opens : Opens item.tokens front middle) : skipSpace text ≠ ']' :: tail := by
  rintro closed
  cases first with
  | true =>
    obtain ⟨c, _, found, begins⟩ := exists_begins opens
    rw [← leads, skipSpace_skipSpace, closed] at found
    exact begins.ne.1 (List.cons.inj found).1.symm
  | false => simp [Reader.Leads, closed] at leads

/-- A member does not begin where an object closes. -/
theorem not_closed_of_quote {first : Bool} {front after tail : List Char}
    (leads : Reader.Leads first text front) (quote : skipSpace front = '"' :: after) :
    skipSpace text ≠ '\x7d' :: tail := by
  rintro closed
  cases first with
  | true =>
    have leads : skipSpace text = front := leads
    rw [← leads, skipSpace_skipSpace, closed] at quote
    simp at quote
  | false => simp [Reader.Leads, closed] at leads

/-! ## One tree -/

/-- A text that begins with the tree begins with no other. -/
def Unique (tree : Tree) : Prop :=
  ∀ ⦃other : Tree⦄ ⦃text rest rest' : List Char⦄, Opens tree.tokens text rest →
    Opens other.tokens text rest' → Ends rest → Ends rest' → tree = other ∧ rest = rest'

/-- A list goes on with one row of elements at most. -/
theorem items_unique {items others : List Tree} (unique : ∀ item ∈ items, item.Unique)
    {first : Bool} {rest' : List Char} (opens : Opens (tokensOf first items ++ [[']']]) text rest)
    (opens' : Opens (tokensOf first others ++ [[']']]) text rest') :
    items = others ∧ rest = rest' := by
  induction items generalizing others first text with
  | nil =>
    obtain ⟨_, closed, rfl⟩ := opens
    cases others with
    | nil =>
      obtain ⟨_, closed', rfl⟩ := opens'
      exact ⟨rfl, (List.cons.inj (closed.symm.trans closed')).2⟩
    | cons other others =>
      obtain ⟨front, middle, leads, opens', -⟩ := opens_tokensOf_cons.mp opens'
      exact absurd closed (not_closed_of_leads leads opens')
  | cons item items induction =>
    obtain ⟨front, middle, leads, opens, later⟩ := opens_tokensOf_cons.mp opens
    cases others with
    | nil =>
      obtain ⟨_, closed, -⟩ := opens'
      exact absurd closed (not_closed_of_leads leads opens)
    | cons other others =>
      obtain ⟨front', middle', leads', opens', later'⟩ := opens_tokensOf_cons.mp opens'
      obtain rfl := leads_unique leads leads'
      obtain ⟨rfl, rfl⟩ := unique item List.mem_cons_self opens opens'
        (ends_of_opens_tokensOf later) (ends_of_opens_tokensOf later')
      obtain ⟨rfl, rfl⟩ :=
        induction (fun item member => unique item (List.mem_cons_of_mem _ member)) later later'
      exact ⟨rfl, rfl⟩

/-- An object goes on with one row of members at most. -/
theorem members_unique {members others : List (Quoted × Tree)}
    (unique : ∀ member ∈ members, member.2.Unique) {first : Bool} {rest' : List Char}
    (opens : Opens (tokensIn first members ++ [['\x7d']]) text rest)
    (opens' : Opens (tokensIn first others ++ [['\x7d']]) text rest') :
    members = others ∧ rest = rest' := by
  induction members generalizing others first text with
  | nil =>
    obtain ⟨_, closed, rfl⟩ := opens
    cases others with
    | nil =>
      obtain ⟨_, closed', rfl⟩ := opens'
      exact ⟨rfl, (List.cons.inj (closed.symm.trans closed')).2⟩
    | cons other others =>
      obtain ⟨front, after, middle, leads, quote, -⟩ := opens_tokensIn_cons.mp opens'
      exact absurd closed (not_closed_of_quote leads quote)
  | cons member members induction =>
    obtain ⟨⟨inside, quotable⟩, value⟩ := member
    obtain ⟨front, after, middle, leads, quote, ⟨behind, colon, opens⟩, later⟩ :=
      opens_tokensIn_cons.mp opens
    cases others with
    | nil =>
      obtain ⟨_, closed, -⟩ := opens'
      exact absurd closed (not_closed_of_quote leads quote)
    | cons other others =>
      obtain ⟨⟨inside', quotable'⟩, value'⟩ := other
      obtain ⟨front', after', middle', leads', quote', ⟨behind', colon', opens'⟩, later'⟩ :=
        opens_tokensIn_cons.mp opens'
      obtain rfl := leads_unique leads leads'
      obtain ⟨rfl, rfl⟩ :=
        inside_unique quotable quotable' (List.cons.inj (quote.symm.trans quote')).2
      obtain ⟨-, rfl⟩ := List.cons.inj (colon.symm.trans colon')
      obtain ⟨rfl, rfl⟩ := unique _ List.mem_cons_self opens opens'
        (ends_of_opens_tokensIn later) (ends_of_opens_tokensIn later')
      obtain ⟨rfl, rfl⟩ :=
        induction (fun member inside => unique member (List.mem_cons_of_mem _ inside)) later later'
      exact ⟨rfl, rfl⟩

/-- A text begins with one tree at most, by induction on the tree. -/
theorem opens_unique (tree : Tree) : tree.Unique := by
  induction tree using Tree.induction with
  | null =>
    intro other text rest rest' opens opens' ends ends'
    cases sameForm_of_opens opens opens'
    exact ⟨rfl, token_unique opens opens'⟩
  | flag value =>
    intro other text rest rest' opens opens' ends ends'
    cases sameForm_of_opens opens opens'
    cases value <;> exact ⟨rfl, token_unique opens opens'⟩
  | number numeral =>
    intro other text rest rest' opens opens' ends ends'
    cases sameForm_of_opens opens opens' with
    | number numeral other =>
      have same := (opens_singleton.mp opens).symm.trans (opens_singleton.mp opens')
      obtain ⟨rfl, rfl⟩ := Numeral.token_unique ends ends' same
      exact ⟨rfl, rfl⟩
  | string quoted =>
    intro other text rest rest' opens opens' ends ends'
    cases sameForm_of_opens opens opens' with
    | string quoted other =>
      obtain ⟨inside, quotable⟩ := quoted
      obtain ⟨inside', quotable'⟩ := other
      have same := (opens_singleton.mp opens).symm.trans (opens_singleton.mp opens')
      obtain ⟨rfl, rfl⟩ :=
        inside_unique quotable quotable' (by simpa [Quoted.token] using same)
      exact ⟨rfl, rfl⟩
  | list items unique =>
    intro other text rest rest' opens opens' ends ends'
    cases sameForm_of_opens opens opens' with
    | list items others =>
      obtain ⟨after, bracket, opens⟩ := opens
      obtain ⟨after', bracket', opens'⟩ := opens'
      obtain ⟨-, rfl⟩ := List.cons.inj (bracket.symm.trans bracket')
      obtain ⟨rfl, rfl⟩ := items_unique unique opens opens'
      exact ⟨rfl, rfl⟩
  | object members unique =>
    intro other text rest rest' opens opens' ends ends'
    cases sameForm_of_opens opens opens' with
    | object members others =>
      obtain ⟨after, brace, opens⟩ := opens
      obtain ⟨after', brace', opens'⟩ := opens'
      obtain ⟨-, rfl⟩ := List.cons.inj (brace.symm.trans brace')
      obtain ⟨rfl, rfl⟩ := members_unique unique opens opens'
      exact ⟨rfl, rfl⟩

/-- A document is a layout of one tree at most. -/
theorem eq_of_laidOut {tree other : Tree} (laid : LaidOut tree.tokens text)
    (laid' : LaidOut other.tokens text) : tree = other := by
  obtain ⟨rest, opens, spaces⟩ := laidOut_iff_opens.mp laid
  obtain ⟨rest', opens', spaces'⟩ := laidOut_iff_opens.mp laid'
  have ends {text : List Char} (spaces : skipSpace text = []) : Ends text :=
    ends_of_skipSpace fun c tail found => by simp [spaces] at found
  exact (opens_unique tree opens opens' (ends spaces) (ends spaces')).1

/-! ## Texts of trees -/

/-- All tokens of a tree are solid. -/
theorem solid_tokens (tree : Tree) : ∀ token ∈ tree.tokens, Solid token := by
  have bracket {c : Char} (visible : isSpace c = false) : Solid [c] := ⟨c, [], rfl, visible⟩
  have quoted (quoted : Quoted) : Solid quoted.token := ⟨'"', _, rfl, by decide⟩
  induction tree using Tree.induction with
  | null =>
    intro token member
    obtain rfl := List.mem_singleton.mp member
    exact ⟨'n', _, rfl, by decide⟩
  | flag value =>
    intro token member
    cases value <;> obtain rfl := List.mem_singleton.mp member <;> exact ⟨_, _, rfl, by decide⟩
  | string text =>
    intro token member
    obtain rfl := List.mem_singleton.mp member
    exact quoted text
  | number numeral =>
    intro token member
    obtain rfl := List.mem_singleton.mp member
    obtain ⟨c, tail, same, begins⟩ := numeral.exists_token_eq_cons
    exact ⟨c, tail, same, isSpace_of_number begins⟩
  | list items induction =>
    have elements (first : Bool) : ∀ token ∈ tokensOf first items, Solid token := by
      induction items generalizing first with
      | nil => simp [tokensOf]
      | cons item items later =>
        intro token member
        simp only [tokensOf, List.mem_append] at member
        rcases member with before | inside | behind
        · exact solid_comma first token before
        · exact induction item List.mem_cons_self token inside
        · exact later (fun other member => induction other (List.mem_cons_of_mem item member)) false
            token behind
    intro token member
    simp only [tokens, List.mem_cons, List.mem_append, List.not_mem_nil, or_false] at member
    rcases member with rfl | inside | rfl
    · exact bracket (by decide)
    · exact elements true token inside
    · exact bracket (by decide)
  | object members induction =>
    have entries (first : Bool) : ∀ token ∈ tokensIn first members, Solid token := by
      induction members generalizing first with
      | nil => simp [tokensIn]
      | cons member members later =>
        obtain ⟨key, value⟩ := member
        intro token inside
        simp only [tokensIn, List.mem_append, List.mem_cons] at inside
        rcases inside with before | rfl | rfl | inside | behind
        · exact solid_comma first token before
        · exact quoted key
        · exact bracket (by decide)
        · exact induction (key, value) List.mem_cons_self token inside
        · exact later (fun other member => induction other (List.mem_cons_of_mem _ member)) false
            token behind
    intro token member
    simp only [tokens, List.mem_cons, List.mem_append, List.not_mem_nil, or_false] at member
    rcases member with rfl | inside | rfl
    · exact bracket (by decide)
    · exact entries true token inside
    · exact bracket (by decide)

/-- The written form of a tree without any spaces between its tokens. -/
def written (tree : Tree) : String := String.ofList tree.tokens.flatten

/-- Every tree is the tree of a document. -/
theorem laidOut_written (tree : Tree) : LaidOut tree.tokens tree.written.toList := by
  rw [written, String.toList_ofList]
  exact laidOut_flatten tree.solid_tokens

end Tree

/-- No character of a text needs an escape. -/
def IsPlain (text : List Char) : Prop := ∀ c ∈ text, 0x20 ≤ c.toNat ∧ c ≠ '"' ∧ c ≠ '\\'

-- Named, since an instance found by search may run through every character there is instead.
instance (text : List Char) : Decidable (IsPlain text) := List.decidableBAll _ text

theorem IsPlain.quotable {text : List Char} (plain : IsPlain text) : Quotable text := by
  induction text with
  | nil => exact .done
  | cons c rest induction =>
    obtain ⟨⟨visible, noQuote, noEscape⟩, later⟩ := List.forall_mem_cons.mp plain
    exact .plain visible noQuote noEscape (induction later)

theorem IsPlain.scanString {text : List Char} (plain : IsPlain text) (read rest : List Char) :
    scanString read (text ++ '"' :: rest) = .ok (String.ofList (read.reverse ++ text), rest) := by
  induction text generalizing read with
  | nil => simp [Document.scanString]
  | cons c tail induction =>
    obtain ⟨⟨visible, noQuote, noEscape⟩, later⟩ := List.forall_mem_cons.mp plain
    rw [List.cons_append, Document.scanString, if_neg noQuote, if_neg noEscape,
      if_neg (Nat.not_lt.mpr visible), induction later]
    simp

/-- A text without escapes as it is written. -/
def Quoted.plain (text : String) (plain : IsPlain text.toList) : Quoted :=
  ⟨text.toList, plain.quotable⟩

theorem Quoted.text?_plain (text : String) (plain : IsPlain text.toList) :
    (Quoted.plain text plain).text? = some text := by
  rw [Quoted.text?, Quoted.plain, plain.scanString]
  simp

end GrammarArtifact.Document
