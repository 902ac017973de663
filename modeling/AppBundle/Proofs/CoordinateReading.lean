import AppBundle.Failure
import AppBundle.Proofs.CoordinateText
import AppBundle.Proofs.Trimming

namespace AppBundle

/-! Reading and writing coordinates. A text is read where it has three to five parts and none of them is
empty. What is written then is the trimmed text, with the type where the text left it out, and reading
that gives the same coordinate.
-/

namespace Coordinate

variable {coordinate other : Coordinate} {text : String}

theorem parse_eq_ok : parse text = .ok coordinate ↔ parse? text = some coordinate := by
  unfold parse
  cases parse? text with
  | none => simp
  | some read => simp

theorem parse_succeeds : (∃ coordinate, parse text = .ok coordinate) ↔ Complete (partsOf text) := by
  simp only [parse_eq_ok]
  constructor
  · rintro ⟨coordinate, read⟩
    exact (parse?_eq_some.mp read).1
  · intro complete
    have ⟨least, most, _⟩ := complete
    -- one coordinate for each number of parts
    match parts : partsOf text with
    | [group, name, version] =>
        refine ⟨⟨group, name, version, defaultKind, none, none⟩, parse?_eq_some.mpr ⟨complete, rfl, ?_⟩⟩
        simp [parts, pieces]
    | [group, name, version, kind] =>
        refine ⟨⟨group, name, version, kind, none, none⟩, parse?_eq_some.mpr ⟨complete, rfl, ?_⟩⟩
        simp [parts, pieces]
    | [group, name, version, kind, classifier] =>
        refine ⟨⟨group, name, version, kind, some classifier, none⟩,
          parse?_eq_some.mpr ⟨complete, rfl, ?_⟩⟩
        simp [parts, pieces]
    | [] | [_] | [_, _] | _ :: _ :: _ :: _ :: _ :: _ :: _ =>
        simp only [parts, List.length_cons, List.length_nil] at least most
        omega

theorem parse_eq_error (incomplete : ¬Complete (partsOf text)) :
    parse text = .error (.invalidCoordinate text) := by
  unfold parse
  split
  · next read => exact absurd (parse?_eq_some.mp read).1 incomplete
  · rfl

/-- What a text is written as once it was read. -/
def canonical (text : String) : String :=
  if (partsOf text).length = 3 then Text.trim text ++ ":" ++ defaultKind else Text.trim text

theorem text_of_parse? (read : parse? text = some coordinate) : coordinate.text = canonical text := by
  obtain ⟨⟨least, _, _⟩, _, pieces⟩ := parse?_eq_some.mp read
  have whole : Text.joined ':' (partsOf text) = Text.trim text := Text.joined_parts ..
  rw [text_eq_joined, pieces, canonical]
  split
  · have some : partsOf text ≠ [] := List.ne_nil_of_length_pos (by omega)
    rw [Text.joined_concat some, whole]
    rfl
  · rw [List.append_nil, whole]

theorem trimmed_canonical (complete : Complete (partsOf text)) : Text.Trimmed (canonical text) := by
  have trimmed := Text.trimmed_trim text
  unfold canonical
  split
  · have nonempty : Text.trim text ≠ "" := by
      intro empty
      obtain ⟨least, _, _⟩ := complete
      simp [partsOf, empty, Text.parts] at least
    rw [String.append_assoc]
    refine trimmed.append nonempty fun char last => ?_
    have ending : (":" ++ defaultKind).toList.getLast? = some 'r' := rfl
    obtain rfl := Option.some.inj (ending.symm.trans last)
    rfl
  · exact trimmed

theorem parse?_text (read : parse? text = some coordinate) :
    parse? coordinate.text = some coordinate := by
  obtain ⟨complete, unscoped, _⟩ := parse?_eq_some.mp read
  have trimmed : Text.trim coordinate.text = coordinate.text := by
    rw [text_of_parse? read]
    exact (trimmed_canonical complete).trim_eq
  have parts : partsOf coordinate.text = coordinate.pieces := by
    rw [partsOf, trimmed]
    exact parts_text ⟨text, coordinate, read, rfl⟩
  have nonempty : "" ∉ coordinate.pieces := fun member => pieces_nonempty read _ member rfl
  rw [parse?_eq_some, parts]
  -- with its type the text has four parts at least
  cases found : coordinate.classifier with
  | none =>
      have length : coordinate.pieces.length = 4 := by simp [pieces, found]
      exact ⟨⟨by omega, by omega, nonempty⟩, unscoped, by simp [length]⟩
  | some classifier =>
      have length : coordinate.pieces.length = 5 := by simp [pieces, found]
      exact ⟨⟨by omega, by omega, nonempty⟩, unscoped, by simp [length]⟩

/-- Exactly the texts with three to five parts, none of them empty, are read as coordinates. Such a
coordinate is written as the trimmed text, with the default type behind three parts; what is written is
read as the same coordinate, and no two coordinates that are read are written alike. -/
theorem parse_canonical (text : String) :
    ((∃ coordinate, parse text = .ok coordinate) ↔
      3 ≤ (partsOf text).length ∧ (partsOf text).length ≤ 5 ∧ "" ∉ partsOf text) ∧
    ((∀ coordinate, parse text ≠ .ok coordinate) → parse text = .error (.invalidCoordinate text)) ∧
    ∀ coordinate, parse text = .ok coordinate →
      coordinate.text =
          (if (partsOf text).length = 3 then Text.trim text ++ ":jar" else Text.trim text) ∧
        parse coordinate.text = .ok coordinate ∧
        ∀ text' other, parse text' = .ok other → other.text = coordinate.text → other = coordinate := by
  refine ⟨parse_succeeds, fun unread => parse_eq_error fun complete => ?_, fun coordinate read => ?_⟩
  · obtain ⟨coordinate, read⟩ := parse_succeeds.mpr complete
    exact unread coordinate read
  · simp only [parse_eq_ok] at read ⊢
    have again := parse?_text read
    refine ⟨?_, again, fun text' other read' same => ?_⟩
    · rw [text_of_parse? read, canonical, String.append_assoc]
      rfl
    · have again' := parse?_text read'
      rw [same, again] at again'
      exact (Option.some.inj again').symm

/-- Blanks are dropped around the whole text only. -/
example : parse " g: a:1\u3000" = .ok ⟨"g", " a", "1", "jar", none, none⟩ := by decide +kernel

end Coordinate

end AppBundle
