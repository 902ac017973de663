import AppBundle.Pom
import AppBundle.Proofs.Xml.Elements

namespace AppBundle

/-! Companion metadata that was written, read again. A reader finds the five fields whatever their texts
say, each without the space at its ends, so that a document is read as it was exactly where no field has
such space.
-/

namespace Pom

open Xml

theorem fieldNames_plain : ∀ name ∈ fieldNames, IsPlain name ∧ (Tag.plain name).localName = name := by
  decide +kernel

/-- What a reader finds in the place of a field: its text without the space around it. -/
def shownField (field : String × Option String) : String × Option String :=
  (field.1, some (trim (field.2.getD "")))

theorem readField_element (outer : String) (field : String × Option String) (scope : Scope)
    (events : List Event) :
    readField (.plain outer) (.plain field.1)
        ⟨scope, true, textEvents (escape (field.2.getD "").toList) ++ .closing :: events⟩ =
      some ((shownField field).2, ⟨scope.leave, true, events⟩) := by
  have unmarked (name : String) : scope.marksNil (.plain name) = false := rfl
  rw [readField, Stream.aheadScope?_textEvents, Option.bind_eq_bind, Option.bind_some, unmarked, unmarked,
    Bool.or_self, if_neg Bool.false_ne_true, Stream.elementText_textEvents]
  rfl

theorem readFields_closing {outer : Tag} {known : List (String × Option String)} {scope : Scope}
    {events : List Event} : readFields outer known ⟨scope, true, .closing :: events⟩ = some known := by
  rw [readFields]
  rfl

theorem readFields_opening {outer tag : Tag} {known : List (String × Option String)}
    {stream inside after : Stream} {name : String} {value : Option String}
    (next : stream.next = some (.opening tag, inside)) (called : tag.localName = name)
    (isField : name ∈ fieldNames) (new : ∀ field ∈ known, field.1 ≠ name)
    (read : readField outer tag inside = some (value, after)) :
    readFields outer known stream = readFields outer ((name, value) :: known) after := by
  subst called
  have unknown : ¬known.any (·.1 = tag.localName) = true := by
    rw [List.any_eq_true]
    rintro ⟨field, member, same⟩
    exact new field member (of_decide_eq_true same)
  rw [readFields]
  split
  case h_5 tag' inside' first =>
    rw [next] at first
    cases first
    rw [if_pos isField, if_neg unknown]
    split
    · next failed => rw [read] at failed; cases failed
    · next value' after' read' =>
        rw [read] at read'
        cases read'
        rfl
  -- no other part comes next
  all_goals
    next first => rw [next] at first; cases first

/-- Fields of different names are all found, the last one first. -/
theorem readFields_elements {fields : List (String × Option String)}
    (named : ∀ field ∈ fields, field.1 ∈ fieldNames) (distinct : (fields.map (·.1)).Nodup)
    {known : List (String × Option String)}
    (new : ∀ field ∈ fields, ∀ other ∈ known, other.1 ≠ field.1) (outer : String) (scope : Scope)
    (events : List Event) :
    readFields (.plain outer) known
        ⟨scope, true, fields.flatMap elementEvents ++ .closing :: events⟩ =
      some ((fields.map shownField).reverse ++ known) := by
  induction fields generalizing known with
  | nil => exact readFields_closing
  | cons field others ih =>
      obtain ⟨isField, named⟩ := List.forall_mem_cons.mp named
      obtain ⟨unknown, new⟩ := List.forall_mem_cons.mp new
      obtain ⟨unrepeated, distinct⟩ := List.nodup_cons.mp distinct
      have next : Stream.next
          ⟨scope, true, (field :: others).flatMap elementEvents ++ .closing :: events⟩ =
          some (.opening (.plain field.1),
            ⟨[] :: scope, true, textEvents (escape (field.2.getD "").toList) ++
              .closing :: (others.flatMap elementEvents ++ .closing :: events)⟩) := by
        rw [List.flatMap_cons, elementEvents, List.append_assoc, List.cons_append, List.append_assoc]
        rfl
      have later : ∀ other ∈ others, ∀ seen ∈ shownField field :: known, seen.1 ≠ other.1 := by
        intro other member seen there
        rcases List.mem_cons.mp there with rfl | there
        · exact fun same => unrepeated (List.mem_map.mpr ⟨other, member, same.symm⟩)
        · exact new other member seen there
      rw [readFields_opening next (fieldNames_plain _ isField).2 isField unknown
        (readField_element outer field _ _)]
      refine (ih named distinct later).trans ?_
      rw [List.map_cons, List.reverse_cons, List.append_assoc]
      rfl

theorem tokens_declaration {rest : List Char} (ends : ∀ char ∈ rest.head?, char = '<') :
    tokens (declaration.toList ++ rest) = .aside :: .text ['\n'] :: tokens rest := by
  have markup : readMarkup (declaration.toList.tail ++ rest) = some ([.aside], ['\n'] ++ rest) := rfl
  calc tokens (declaration.toList ++ rest)
      = tokens ('<' :: (declaration.toList.tail ++ rest)) := rfl
    _ = .aside :: tokens (['\n'] ++ rest) := tokens_markup markup
    _ = .aside :: .text ['\n'] :: tokens rest := by
        rw [tokens_text (List.cons_ne_nil _ _) (by decide) ends]

theorem fields_named (pom : Pom) : ∀ field ∈ pom.fields, field.1 ∈ fieldNames :=
  fun _ => List.mem_map_of_mem

/-- A line break stands in front of the document and another one behind it. -/
theorem events_toXml (pom : Pom) :
    events pom.toXml = .text [.written ['\n']] :: .opening (.plain "project") ::
      (pom.fields.flatMap elementEvents ++ [.closing, .text [.written ['\n']]]) := by
  let body := pom.fields.flatMap fun field => textElement field.1 field.2
  have isPlain : IsPlain "project" := by decide +kernel
  have occupied : body ≠ [] := by
    intro empty
    exact wrapped_ne_nil
      (List.flatMap_eq_nil_iff.mp empty ("modelVersion", pom.modelVersion) List.mem_cons_self)
  have chars : pom.toXml.toList = declaration.toList ++
      (openingTag "project" ++ (body ++ (closingTag "project" ++ ['\n']))) := by
    have written : pom.toXml = declaration ++ String.ofList (wrapped "project" body ++ ['\n']) := rfl
    rw [written, String.toList_append, String.toList_ofList, wrapped, if_neg occupied,
      List.append_assoc, List.append_assoc]
  have ending : tokens (['\n'] ++ []) = .text ['\n'] :: tokens [] :=
    tokens_text (List.cons_ne_nil _ _) (by decide) (by simp)
  have tokensOf : tokens pom.toXml.toList = .aside :: .text ['\n'] :: .opening (.plain "project") ::
      tokens (body ++ (closingTag "project" ++ ['\n'])) := by
    rw [chars, tokens_declaration (by simp [openingTag]), tokens_openingTag isPlain]
  have inner : eventsOf ["project"] [] (tokens (body ++ (closingTag "project" ++ ['\n']))) =
      pom.fields.flatMap elementEvents ++ [.closing, .text [.written ['\n']]] := by
    have plain : ∀ field ∈ pom.fields, IsPlain field.1 :=
      fun field member => (fieldNames_plain _ (pom.fields_named field member)).1
    rw [eventsOf_textElements plain, tokens_closingTag isPlain, ← List.append_nil ['\n'], ending, tokens]
    rfl
  have noMark : events pom.toXml = eventsOf [] [] (tokens pom.toXml.toList) := by
    rw [events, chars]
    rfl
  rw [noMark, tokensOf, ← inner]
  rfl

/-- The document that a reader finds. -/
def shown (pom : Pom) : Pom :=
  ofFields (pom.fields.map shownField)

/-- Whatever the fields hold, what is written is read, each field without the space around it. -/
theorem parse_toXml (pom : Pom) : parse pom.toXml = .ok pom.shown := by
  have blank : Stream.areBlank (Stream.visible true [.written ['\n']]) = true := by decide
  have next : (Stream.ofText pom.toXml).next = some (.opening (.plain "project"),
      ⟨[[]], true, pom.fields.flatMap elementEvents ++ [.closing, .text [.written ['\n']]]⟩) := by
    rw [Stream.ofText, Stream.next, events_toXml, Stream.nextOf_blank blank]
    rfl
  have distinct : (pom.fields.map (·.1)).Nodup := by
    show fieldNames.Nodup
    decide
  have proper : (Tag.plain "project").isProper = true := rfl
  have read : readFields (.plain "project") []
      ⟨[[]], true, pom.fields.flatMap elementEvents ++ [.closing, .text [.written ['\n']]]⟩ =
      some ((pom.fields.map shownField).reverse ++ []) :=
    readFields_elements pom.fields_named distinct (by simp) ..
  have shown : ofStream? (.ofText pom.toXml) = some pom.shown := by
    rw [ofStream?, next]
    show (if (Tag.plain "project").isProper then (readFields _ [] _).map ofFields else none) = _
    rw [if_pos proper, read]
    rfl
  rw [parse, shown]

/-- What is written of a coordinate is read, whatever its parts say. It is read as it was where no part
begins or ends with a blank character, and else exactly where the blanks at the ends are no space of
markup. -/
theorem parse_toXml_minimal (coordinate : Coordinate) :
    let parts := [coordinate.group, coordinate.name, coordinate.version, coordinate.kind]
    ((∀ part ∈ parts, Text.Trimmed part) →
      parse (minimal coordinate).toXml = .ok (minimal coordinate)) ∧
    ∃ pom, parse (minimal coordinate).toXml = .ok pom ∧
      (pom = minimal coordinate ↔ ∀ part ∈ parts, Xml.trim part = part) := by
  intro parts
  have same : Xml.trim currentVersion = currentVersion := by decide
  have shown : (minimal coordinate).shown =
      ⟨some (Xml.trim currentVersion), some (Xml.trim coordinate.group),
        some (Xml.trim coordinate.name), some (Xml.trim coordinate.version),
        some (Xml.trim coordinate.kind)⟩ := rfl
  have kept : (minimal coordinate).shown = minimal coordinate ↔ ∀ part ∈ parts, Xml.trim part = part := by
    rw [shown, minimal, same]
    simp [parts]
  refine ⟨fun trimmed => ?_, (minimal coordinate).shown, parse_toXml _, kept⟩
  rw [parse_toXml, kept.mpr fun part member => Xml.trim_of_trimmed (trimmed part member)]

/-- Parts that look like tags, like references and like the end of a literal. -/
theorem parse_toXml_minimal_markup :
    let text := " <a href='/'>:&amp;lt;]]>:</version><!--\":&#0;　x/:--> "
    ∃ coordinate, Coordinate.parse text = .ok coordinate ∧
      (∀ part ∈ [coordinate.group, coordinate.name, coordinate.version, coordinate.kind],
        Text.Trimmed part) ∧
      parse (minimal coordinate).toXml = .ok (minimal coordinate) := by
  intro text
  let coordinate : Coordinate :=
    ⟨"<a href='/'>", "&amp;lt;]]>", "</version><!--\"", "&#0;　x/", some "-->", none⟩
  have trimmed : ∀ part ∈ [coordinate.group, coordinate.name, coordinate.version, coordinate.kind],
      Text.Trimmed part := by
    decide +kernel
  exact ⟨coordinate, by decide +kernel, trimmed, (parse_toXml_minimal coordinate).1 trimmed⟩

end Pom

end AppBundle
