import AppBundle.Json.Reader
import AppBundle.Proofs.Json.Scan

namespace AppBundle.Json

/-! Documents of written values. Reading the tokens of a value puts its document into the innermost
open container and leaves everything behind the value as it is, so that a whole text is read back
as the document of the value that it was written from.
-/

mutual

def document : Json → Document
  | null => .null
  | boolean value => .boolean value
  | natural value => .number (numeral value)
  | text value => .text value
  | array items => .array (documents items) true
  | object members => .object (memberDocuments members) true

def documents : List Json → List Document
  | [] => []
  | item :: rest => document item :: documents rest

def memberDocuments : List (String × Json) → List (Option String × Document)
  | [] => []
  | (key, value) :: rest => (some key, document value) :: memberDocuments rest

end

theorem documents_eq_map (items : List Json) : documents items = items.map document := by
  induction items with
  | nil => rfl
  | cons item rest ih => rw [documents, ih, List.map_cons]

variable {reading : Reading} {token : Token} {rest : List Token} {outer : List Frame}

/-- What comes of reading on after a step. -/
def Progress.resume (rest : List Token) : Progress → Document × List Token
  | ongoing next => next.run rest
  | complete document => (document, rest)
  | stuck document => (document, rest)

theorem run_cons : reading.run (token :: rest) = (reading.step token).resume rest := by
  rw [Reading.run]
  cases reading.step token <;> rfl

/-- The first item of an array is read like any other value. -/
def Expected.AwaitsValue (expected : Expected) : Prop :=
  expected = .value ∨ expected = .firstItem

/-- The first key of an object is read like any other key. -/
def Expected.AwaitsKey (expected : Expected) : Prop :=
  expected = .key ∨ expected = .firstKey

mutual

theorem run_lexemes (value : Json) (outer : List Frame) {expected : Expected}
    (awaits : expected.AwaitsValue) (rest : List Token) :
    Reading.run ⟨outer, expected⟩ (lexemes value ++ rest) =
      (place value.document outer).resume rest := by
  match value with
  | null => rcases awaits with rfl | rfl <;> exact run_cons
  | boolean value => rcases awaits with rfl | rfl <;> exact run_cons
  | natural value => rcases awaits with rfl | rfl <;> exact run_cons
  | text value => rcases awaits with rfl | rfl <;> exact run_cons
  | array [] => rcases awaits with rfl | rfl <;> exact run_cons.trans run_cons
  | object [] => rcases awaits with rfl | rfl <;> exact run_cons.trans run_cons
  | array (item :: items) =>
      have opened : Reading.run ⟨outer, expected⟩ (lexemes (.array (item :: items)) ++ rest) =
          Reading.run ⟨.array [] :: outer, .firstItem⟩
            (lexemes item ++ (itemLexemes items ++ .closeArray :: rest)) := by
        simp only [lexemes, List.cons_append, List.append_assoc, List.nil_append]
        rcases awaits with rfl | rfl <;> exact run_cons
      rw [opened, run_lexemes item (.array [] :: outer) (.inr rfl)]
      exact run_itemLexemes items [item.document] outer rest
  | object (member :: members) =>
      have opened : Reading.run ⟨outer, expected⟩ (lexemes (.object (member :: members)) ++ rest) =
          Reading.run ⟨.object [] :: outer, .firstKey⟩
            (memberLexemes member ++ (membersLexemes members ++ .closeObject :: rest)) := by
        simp only [lexemes, List.cons_append, List.append_assoc, List.nil_append]
        rcases awaits with rfl | rfl <;> exact run_cons
      rw [opened, run_memberLexemes member [] outer (.inr rfl)]
      exact run_membersLexemes members [(some member.1, member.2.document)] outer rest

theorem run_itemLexemes (items : List Json) (before : List Document) (outer : List Frame)
    (rest : List Token) :
    Reading.run ⟨.array before :: outer, .separator⟩ (itemLexemes items ++ .closeArray :: rest) =
      (place (.array (before.reverse ++ documents items) true) outer).resume rest := by
  match items with
  | [] =>
      rw [documents, List.append_nil]
      exact run_cons
  | item :: items =>
      have separated : Reading.run ⟨.array before :: outer, .separator⟩
            (itemLexemes (item :: items) ++ .closeArray :: rest) =
          Reading.run ⟨.array before :: outer, .value⟩
            (lexemes item ++ (itemLexemes items ++ .closeArray :: rest)) := by
        simp only [itemLexemes, List.cons_append, List.append_assoc]
        exact run_cons
      have later := run_itemLexemes items (item.document :: before) outer rest
      rw [List.reverse_cons, List.append_assoc, List.singleton_append] at later
      rw [separated, run_lexemes item (.array before :: outer) (.inl rfl), documents]
      exact later

theorem run_memberLexemes (member : String × Json) (before : List (Option String × Document))
    (outer : List Frame) {expected : Expected} (awaits : expected.AwaitsKey)
    (rest : List Token) :
    Reading.run ⟨.object before :: outer, expected⟩ (memberLexemes member ++ rest) =
      Reading.run ⟨.object ((some member.1, member.2.document) :: before) :: outer, .separator⟩
        rest := by
  match member with
  | (key, value) =>
      have keyed : Reading.run ⟨.object before :: outer, expected⟩
            (memberLexemes (key, value) ++ rest) =
          Reading.run ⟨.member before (some key) :: outer, .colon⟩
            (.colon :: (lexemes value ++ rest)) := by
        simp only [memberLexemes, List.cons_append]
        rcases awaits with rfl | rfl <;> exact run_cons
      have opened : Reading.run ⟨.member before (some key) :: outer, .colon⟩
            (.colon :: (lexemes value ++ rest)) =
          Reading.run ⟨.member before (some key) :: outer, .value⟩ (lexemes value ++ rest) :=
        run_cons
      rw [keyed, opened, run_lexemes value (.member before (some key) :: outer) (.inl rfl)]
      rfl

theorem run_membersLexemes (members : List (String × Json))
    (before : List (Option String × Document)) (outer : List Frame) (rest : List Token) :
    Reading.run ⟨.object before :: outer, .separator⟩
        (membersLexemes members ++ .closeObject :: rest) =
      (place (.object (before.reverse ++ memberDocuments members) true) outer).resume rest := by
  match members with
  | [] =>
      rw [memberDocuments, List.append_nil]
      exact run_cons
  | member :: members =>
      have separated : Reading.run ⟨.object before :: outer, .separator⟩
            (membersLexemes (member :: members) ++ .closeObject :: rest) =
          Reading.run ⟨.object before :: outer, .key⟩
            (memberLexemes member ++ (membersLexemes members ++ .closeObject :: rest)) := by
        simp only [membersLexemes, List.cons_append, List.append_assoc]
        exact run_cons
      have later := run_membersLexemes members
        ((some member.1, member.2.document) :: before) outer rest
      rw [List.reverse_cons, List.append_assoc, List.singleton_append] at later
      rw [separated, run_memberLexemes member before outer (.inl rfl), memberDocuments]
      exact later

end

theorem ofTokens_lexemes (value : Json) :
    Document.ofTokens (lexemes value) = (value.document, []) := by
  have read := run_lexemes value [] (.inl rfl) []
  rw [List.append_nil] at read
  exact read

variable {α : Type}

theorem readFromText_render (reader : Reader α) (value : Json) (pretty : Bool) :
    readFromText reader (value.render pretty) = reader value.document := by
  rw [readFromText, readScalars, tokens_render, ofTokens_lexemes]
  simp only [List.isEmpty_nil, if_true]
  cases reader value.document <;> rfl

theorem contentScalars_toUTF8 (text : String) :
    Text.contentScalars text.toUTF8 = Text.scalars text := by
  have decoded : String.fromUTF8? text.toUTF8 = some text := dif_pos text.isValidUTF8
  rw [Text.contentScalars, decoded]

theorem readFromContent_render (reader : Reader α) (value : Json) (pretty : Bool) :
    readFromContent reader (value.render pretty).toUTF8 = reader value.document := by
  rw [readFromContent, contentScalars_toUTF8]
  exact readFromText_render reader value pretty

end AppBundle.Json
