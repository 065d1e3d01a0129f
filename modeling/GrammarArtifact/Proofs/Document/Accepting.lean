import GrammarArtifact.Proofs.Document.Record
import GrammarArtifact.Proofs.Document.Spelling
import GrammarArtifact.Proofs.Table

/-!
# Accepting written values

A reader accepts a tree with a meaning when it takes the tokens of the tree, and no more,
from every layout in which the tree can stand, and yields the meaning. Lists and objects are
accepted element by element. Records are accepted part by part: a part takes the record
in which the parts before it are filled to the one in which it is filled too, and a part
that is left out leaves the record alone.
-/

namespace GrammarArtifact.Document

open Value

variable {α β κ σ : Type} {text rest : List Char} {after : List (List Char)}

/-! ## Layouts -/

/-- A token that is not empty and begins with no space. -/
def Solid (token : List Char) : Prop := ∃ c tail, token = c :: tail ∧ isSpace c = false

theorem solid_writeString (string : String) : Solid (writeString string) :=
  ⟨'"', _, rfl, by decide⟩

theorem solid_comma (first : Bool) : ∀ token ∈ comma first, Solid token := by
  cases first with
  | true => simp [comma]
  | false =>
    intro token member
    obtain rfl := List.mem_singleton.mp member
    exact ⟨',', [], rfl, by decide⟩

mutual

/-- All tokens of a value are solid. -/
theorem solid_tokens : (value : Value) → ∀ token ∈ value.tokens, Solid token
  | .flag value, token, member => by
    obtain rfl := List.mem_singleton.mp member
    cases value <;> exact ⟨_, _, rfl, by decide⟩
  | .number value, token, member => by
    obtain rfl := List.mem_singleton.mp member
    obtain ⟨c, tail, written, start⟩ := exists_toList_toString value
    exact ⟨c, tail, written, isSpace_of_number start⟩
  | .string text, token, member => by
    obtain rfl := List.mem_singleton.mp member
    exact solid_writeString text
  | .list items, token, member => by
    simp only [tokens, List.mem_cons, List.mem_append, List.not_mem_nil, or_false] at member
    rcases member with rfl | inside | rfl
    · exact ⟨'[', [], rfl, by decide⟩
    · exact solid_tokensOf true items token inside
    · exact ⟨']', [], rfl, by decide⟩
  | .object members, token, member => by
    simp only [tokens, List.mem_cons, List.mem_append, List.not_mem_nil, or_false] at member
    rcases member with rfl | inside | rfl
    · exact ⟨'\x7b', [], rfl, by decide⟩
    · exact solid_tokensIn true members token inside
    · exact ⟨'\x7d', [], rfl, by decide⟩

/-- So are those of the elements of a list. -/
theorem solid_tokensOf (first : Bool) :
    (items : List Value) → ∀ token ∈ tokensOf first items, Solid token
  | [], token, member => by simp [tokensOf] at member
  | item :: items, token, member => by
    simp only [tokensOf, List.mem_append] at member
    rcases member with before | inside | later
    · exact solid_comma first token before
    · exact solid_tokens item token inside
    · exact solid_tokensOf false items token later

/-- So are those of the members of an object. -/
theorem solid_tokensIn (first : Bool) :
    (members : List (String × Value)) → ∀ token ∈ tokensIn first members, Solid token
  | [], token, member => by simp [tokensIn] at member
  | (key, value) :: members, token, member => by
    simp only [tokensIn, List.mem_append, List.mem_cons] at member
    rcases member with before | rfl | rfl | inside | later
    · exact solid_comma first token before
    · exact solid_writeString key
    · exact ⟨':', [], rfl, by decide⟩
    · exact solid_tokens value token inside
    · exact solid_tokensIn false members token later

end

/-- Solid tokens can be laid out without spaces between them. -/
theorem laidOut_flatten {tokens : List (List Char)} (solid : ∀ token ∈ tokens, Solid token) :
    LaidOut tokens tokens.flatten := by
  induction tokens with
  | nil => rfl
  | cons token tokens induction =>
    obtain ⟨c, tail, rfl, front⟩ := solid token List.mem_cons_self
    refine ⟨tokens.flatten, ?_,
      induction fun later member => solid later (List.mem_cons_of_mem _ member)⟩
    simp [skipSpace, front]

/-- The first token of a value says that it is one. -/
theorem exists_tokens_eq_cons (value : Value) :
    ∃ c tail more, value.tokens = (c :: tail) :: more ∧ c ≠ 'n' ∧ c ≠ ']' := by
  cases value with
  | flag value => cases value <;> exact ⟨_, _, _, rfl, by decide, by decide⟩
  | number value =>
    obtain ⟨c, tail, written, start⟩ := exists_toList_toString value
    exact ⟨c, tail, [], by rw [tokens, written], ne_of_number start (by decide),
      ne_of_number start (by decide)⟩
  | string text => exact ⟨_, _, _, rfl, by decide, by decide⟩
  | list items => exact ⟨_, _, _, rfl, by decide, by decide⟩
  | object members => exact ⟨_, _, _, rfl, by decide, by decide⟩

/-- The front of a layout of a value says that it is one. -/
theorem exists_skipSpace_eq_cons {value : Value} (laid : LaidOut (value.tokens ++ after) text) :
    ∃ c tail, skipSpace text = c :: tail ∧ c ≠ 'n' ∧ c ≠ ']' := by
  obtain ⟨c, tail, more, tokens, notNull, notClosing⟩ := exists_tokens_eq_cons value
  rw [tokens] at laid
  obtain ⟨rest, found, -⟩ := laid
  exact ⟨c, tail ++ rest, found, notNull, notClosing⟩

/-- A comma, if there has to be one, leads to what is behind it. -/
theorem leads_of_laidOut {first : Bool} {tokens : List (List Char)}
    (laid : LaidOut (comma first ++ tokens) text) :
    ∃ front, Reader.Leads first text front ∧ LaidOut tokens front := by
  cases first with
  | true => exact ⟨skipSpace text, rfl, laidOut_skipSpace.mpr laid⟩
  | false => exact laid

/-! ## Accepting -/

/-- A reader accepts a value with a meaning: it takes the tokens of the value from every
layout in which the value can stand, and yields the meaning. -/
def Accepts (reader : Reader α) (value : Value) (meant : α) : Prop :=
  ∀ ⦃after text⦄, Closes after → LaidOut (value.tokens ++ after) text →
    ∃ rest, Yields (reader text) meant rest ∧ LaidOut after rest

theorem accepts_map {reader : Reader α} {value : Value} {meant : α} (f : α → β)
    (accepts : Accepts reader value meant) : Accepts (Reader.map f reader) value (f meant) := by
  intro after text closes laid
  obtain ⟨rest, yields, left⟩ := accepts closes laid
  exact ⟨rest, Reader.yields_map.mpr ⟨meant, yields, rfl⟩, left⟩

theorem accepts_optional {reader : Reader α} {value : Value} {meant : α}
    (accepts : Accepts reader value meant) :
    Accepts (Reader.optional reader) value (some meant) := by
  intro after text closes laid
  obtain ⟨rest, yields, left⟩ := accepts closes (laidOut_skipSpace.mpr laid)
  obtain ⟨c, tail, found, notNull, -⟩ := exists_skipSpace_eq_cons laid
  refine ⟨rest, Reader.yields_optional.mpr (.inr ⟨fun tail same => ?_, meant, yields, rfl⟩), left⟩
  exact notNull (List.cons.inj (found.symm.trans same)).1

/-- A written string is scanned from behind its quote. -/
theorem scanString_of_laidOut {string : String}
    (laid : LaidOut (writeString string :: after) text) :
    ∃ front rest, skipSpace text = '"' :: front ∧ scanString [] front = .ok (string, rest) ∧
      LaidOut after rest := by
  obtain ⟨rest, found, left⟩ := laid
  refine ⟨string.toList.flatMap writeChar ++ '"' :: rest, rest, ?_, ?_, left⟩
  · simpa [writeString] using found
  · simpa using scanString_written [] string.toList rest

theorem accepts_string (string : String) : Accepts Reader.string (.string string) string := by
  intro after text closes laid
  obtain ⟨front, rest, quote, scanned, left⟩ := scanString_of_laidOut laid
  exact ⟨rest, Reader.yields_string.mpr ⟨front, quote, scanned⟩, left⟩

theorem accepts_boolean (flag : Bool) : Accepts Reader.boolean (.flag flag) flag := by
  intro after text closes laid
  obtain ⟨rest, found, left⟩ := laid
  cases flag with
  | true => exact ⟨rest, Reader.yields_boolean.mpr (.inl ⟨found, rfl⟩), left⟩
  | false => exact ⟨rest, Reader.yields_boolean.mpr (.inr ⟨found, rfl⟩), left⟩

/-! ## Lists -/

/-- What follows an element is closed or separated from it. -/
theorem closes_tokensOf (items : List Value) : Closes (tokensOf false items ++ [']'] :: after) := by
  cases items <;> simp [tokensOf, comma, Closes]

/-- The elements of a list are read one by one up to its bracket. -/
theorem elements_of_laidOut {item : Reader α} {write : α → Value} {elements : List α}
    (accepts : ∀ element ∈ elements, Accepts item (write element) element) {first : Bool}
    (laid : LaidOut (tokensOf first (elements.map write) ++ [']'] :: after) text) :
    ∃ rest, Reader.Elements item first text elements rest ∧ LaidOut after rest := by
  induction elements generalizing first text with
  | nil =>
    obtain ⟨rest, found, left⟩ := laid
    exact ⟨rest, .close found, left⟩
  | cons element elements induction =>
    rw [List.map_cons, tokensOf, List.append_assoc, List.append_assoc] at laid
    obtain ⟨front, leads, laid⟩ := leads_of_laidOut laid
    obtain ⟨c, tail, found, -, notClosing⟩ := exists_skipSpace_eq_cons laid
    obtain ⟨middle, yields, laid⟩ :=
      accepts element List.mem_cons_self (closes_tokensOf _) laid
    obtain ⟨rest, later, left⟩ :=
      induction (fun later inside => accepts later (List.mem_cons_of_mem element inside)) laid
    exact ⟨rest, .item leads ⟨c, tail, found, notClosing⟩ yields later, left⟩

theorem accepts_list {item : Reader α} {write : α → Value} {elements : List α}
    (accepts : ∀ element ∈ elements, Accepts item (write element) element) :
    Accepts (Reader.list (some item)) (.list (elements.map write)) elements := by
  intro after text closes laid
  rw [tokens, List.cons_append, List.append_assoc] at laid
  obtain ⟨front, opens, laid⟩ := laid
  obtain ⟨rest, read, left⟩ := elements_of_laidOut accepts laid
  exact ⟨rest, Reader.yields_list.mpr ⟨item, front, rfl, opens, read⟩, left⟩

/-! ## Objects -/

/-- What follows a member is closed or separated from it. -/
theorem closes_tokensIn (members : List (String × Value)) :
    Closes (tokensIn false members ++ ['\x7d'] :: after) := by
  cases members <;> simp [tokensIn, comma, Closes]

/-- A reader accepts a colon and a value behind it. -/
def AcceptsMember (reader : Reader α) (value : Value) (meant : α) : Prop :=
  ∀ ⦃after text⦄, Closes after → LaidOut ([':'] :: (value.tokens ++ after)) text →
    ∃ rest, Yields (reader text) meant rest ∧ LaidOut after rest

theorem acceptsMember_colon {reader : Reader α} {value : Value} {meant : α} (f : α → β)
    (accepts : Accepts reader value meant) :
    AcceptsMember (Reader.andThen Reader.colon fun _ => Reader.map f reader) value (f meant) := by
  rintro after text closes ⟨front, colon, laid⟩
  obtain ⟨rest, yields, left⟩ := accepts_map f accepts closes laid
  exact ⟨rest, Reader.yields_andThen.mpr ⟨(), front, Reader.yields_colon.mpr colon, yields⟩, left⟩

/-- Members are accepted one after the other, each by the reader for its key and for what
has been read before it. -/
inductive Collects (member : α → String → Reader α) : α → List (String × Value) → α → Prop
  | done (state : α) : Collects member state [] state
  | next {state next final : α} {key : String} {value : Value} {members : List (String × Value)}
      (accepts : AcceptsMember (member state key) value next)
      (later : Collects member next members final) :
      Collects member state ((key, value) :: members) final

/-- The members of an object are read one by one up to its brace. -/
theorem members_of_laidOut {member : α → String → Reader α} {state final : α}
    {members : List (String × Value)} (collects : Collects member state members final)
    {first : Bool} (laid : LaidOut (tokensIn first members ++ ['\x7d'] :: after) text) :
    ∃ rest, Reader.Members member first state text final rest ∧ LaidOut after rest := by
  induction collects generalizing first text with
  | done state =>
    obtain ⟨rest, found, left⟩ := laid
    exact ⟨rest, .close found, left⟩
  | next accepts later induction =>
    rw [tokensIn, List.append_assoc, List.cons_append, List.cons_append, List.append_assoc] at laid
    obtain ⟨front, leads, laid⟩ := leads_of_laidOut laid
    obtain ⟨string, behind, quote, scanned, laid⟩ := scanString_of_laidOut laid
    obtain ⟨middle, yields, laid⟩ := accepts (closes_tokensIn _) laid
    obtain ⟨rest, later, left⟩ := induction laid
    exact ⟨rest, .member leads quote scanned yields later, left⟩

/-- The bindings of an object are read one by one, the last one first. -/
theorem collects_bindings {reader : Reader α} {write : α → Value} {entries : List (String × α)}
    (accepts : ∀ entry ∈ entries, Accepts reader (write entry.2) entry.2)
    (before : List (String × α)) :
    Collects (Reader.binding reader) before (entries.map fun entry => (entry.1, write entry.2))
      (entries.reverse ++ before) := by
  induction entries generalizing before with
  | nil => exact .done before
  | cons entry entries induction =>
    have later := induction (fun later inside => accepts later (List.mem_cons_of_mem entry inside))
      (entry :: before)
    rw [List.reverse_cons, List.append_assoc]
    exact .next (acceptsMember_colon _ (accepts entry List.mem_cons_self)) later

theorem accepts_bindings {reader : Reader α} {write : α → Value} {bindings : Table α}
    (accepts : ∀ entry ∈ bindings.entries, Accepts reader (write entry.2) entry.2) :
    Accepts (Reader.bindings (some reader)) (ofTable write bindings)
      bindings.entries.reverse := by
  intro after text closes laid
  rw [ofTable, tokens, List.cons_append, List.append_assoc] at laid
  obtain ⟨front, opens, laid⟩ := laid
  have collects := collects_bindings accepts []
  rw [List.append_nil] at collects
  obtain ⟨rest, members, left⟩ := members_of_laidOut collects laid
  exact ⟨rest, Reader.yields_bindings.mpr ⟨reader, front, rfl, opens, members⟩, left⟩

/-- A table is read back with its bindings in their order. -/
theorem accepts_table {reader : Reader α} {write : α → Value} {bindings : Table α}
    (accepts : ∀ entry ∈ bindings.entries, Accepts reader (write entry.2) entry.2) :
    Accepts (table (some reader)) (ofTable write bindings) bindings := by
  have read : Accepts (table (some reader)) (ofTable write bindings)
      (Table.ofBindings bindings.entries.reverse.reverse) :=
    accepts_map _ (accepts_bindings accepts)
  rwa [List.reverse_reverse, Table.ofBindings_entries] at read

/-! ## Records -/

/-- The parts of a record are filled one after the other. -/
inductive Fills (field : κ → σ → Reader σ) : σ → List (κ × Value) → σ → Prop
  | done (record : σ) : Fills field record [] record
  | next {record next final : σ} {key : κ} {value : Value} {parts : List (κ × Value)}
      (accepts : Accepts (field key record) value next) (later : Fills field next parts final) :
      Fills field record ((key, value) :: parts) final

theorem Fills.append {field : κ → σ → Reader σ} {record next final : σ}
    {parts others : List (κ × Value)} (fills : Fills field record parts next)
    (later : Fills field next others final) : Fills field record (parts ++ others) final := by
  induction fills with
  | done record => exact later
  | next accepts _ induction => exact .next accepts (induction later)

/-- One part is filled. -/
theorem Fills.one {field : κ → σ → Reader σ} {record next : σ} {key : κ} {value : Value}
    (accepts : Accepts (field key record) value next) :
    Fills field record [(key, value)] next :=
  .next accepts (.done next)

/-- A part that can be missing is filled, or the record stays as it is. -/
theorem Fills.optional {field : κ → σ → Reader σ} {record next : σ} {key : κ} {reader : Reader α}
    {write : α → Value} {part : Option α} {set : Option α → σ}
    (reads : field key record = Reader.map set (Reader.optional reader))
    (accepts : ∀ known, part = some known → Accepts reader (write known) known)
    (absent : set none = record) (present : set part = next) :
    Fills field record (Value.optional key write part) next := by
  subst present
  cases part with
  | none =>
    rw [absent]
    exact .done record
  | some known =>
    refine .one ?_
    rw [reads]
    exact accepts_map set (accepts_optional (accepts known rfl))

/-- A part that can be missing has its key at most once. -/
theorem keys_optional_sublist (key : κ) (write : α → Value) (part : Option α) :
    ((Value.optional key write part).map Prod.fst).Sublist [key] := by
  cases part <;> simp [Value.optional]

namespace RecordForm

variable [DecidableEq κ] {form : RecordForm κ} {field : κ → σ → Reader σ}

/-- Parts that are filled once each are members of the record. -/
theorem collects_of_fills {record final : σ} {parts : List (κ × Value)}
    (fills : Fills field record parts final) (known : ∀ key, form.key? (form.label key) = some key)
    (seen : List κ) (distinct : (seen.reverse ++ parts.map Prod.fst).Nodup) :
    Collects (form.member field) (record, seen)
      (parts.map fun part => (form.label part.1, part.2))
      (final, (parts.map Prod.fst).reverse ++ seen) := by
  induction fills generalizing seen with
  | done record => exact .done (record, seen)
  | @next record next final key value parts accepts later induction =>
    have fresh : key ∉ seen := by
      intro member
      exact (List.nodup_append.mp distinct).2.2 key (List.mem_reverse.mpr member) key
        List.mem_cons_self rfl
    have rest := induction (key :: seen) (by simpa using distinct)
    rw [List.map_cons, List.map_cons, List.reverse_cons, List.append_assoc]
    refine .next (fun after text closes laid => ?_) rest
    obtain ⟨middle, colon, laid⟩ := laid
    obtain ⟨rest, yields, left⟩ := accepts closes laid
    exact ⟨rest, (yields_member_of_key (known key)).mpr ⟨fresh, middle, next, colon, yields, rfl⟩,
      left⟩

/-- A record is read back when its parts are filled, each key at most once and every required
one. -/
theorem accepts_read {blank record : σ} {parts : List (κ × Value)}
    (fills : Fills field blank parts record) (known : ∀ key, form.key? (form.label key) = some key)
    (distinct : (parts.map Prod.fst).Nodup)
    (complete : ∀ key, form.required key = true → key ∈ parts.map Prod.fst) :
    Accepts (form.read (some field) blank)
      (.object (parts.map fun part => (form.label part.1, part.2))) record := by
  intro after text closes laid
  rw [tokens, List.cons_append, List.append_assoc] at laid
  obtain ⟨front, opens, laid⟩ := laid
  obtain ⟨rest, members, left⟩ :=
    members_of_laidOut (collects_of_fills fills known [] (by simpa using distinct)) laid
  refine ⟨rest, yields_read.mpr ⟨field, front, rfl, .inl ⟨opens, _, members, ?_⟩⟩, left⟩
  intro key _ required
  simpa using complete key required

end RecordForm

end GrammarArtifact.Document
