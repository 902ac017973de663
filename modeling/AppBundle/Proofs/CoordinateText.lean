import AppBundle.Coordinate

namespace AppBundle

/-! The text of a coordinate. It joins the parts of the coordinate, and where no part holds the
separator, as after parsing, the parts can be told from the text again.
-/

namespace Text

theorem separator_not_mem {α : Type} [BEq α] [LawfulBEq α] {separator : α} {items piece : List α}
    (member : piece ∈ items.splitOn separator) : separator ∉ piece := by
  induction items generalizing piece with
  | nil =>
      obtain rfl := List.mem_singleton.mp (List.splitOn_nil separator ▸ member)
      exact List.not_mem_nil
  | cons item rest ih =>
      rw [List.splitOn_cons_eq_if_modifyHead] at member
      split at member
      · rcases List.mem_cons.mp member with rfl | later
        · exact List.not_mem_nil
        · exact ih later
      · next different =>
          cases pieces : rest.splitOn separator with
          | nil => exact absurd pieces (List.splitOn_ne_nil separator rest)
          | cons first others =>
              rw [pieces, List.modifyHead_cons] at member
              rcases List.mem_cons.mp member with rfl | later
              · have clean := ih (pieces ▸ List.mem_cons_self ..)
                rw [List.mem_cons, not_or]
                exact ⟨fun same => different (by simp [same]), clean⟩
              · exact ih (pieces ▸ List.mem_cons_of_mem _ later)

theorem separator_not_mem_parts {separator : Char} {text piece : String}
    (member : piece ∈ parts separator text) : separator ∉ piece.toList := by
  obtain ⟨chars, there, rfl⟩ := List.mem_map.mp member
  rw [String.toList_ofList]
  exact separator_not_mem there

theorem parts_joined {separator : Char} {pieces : List String} (some : pieces ≠ [])
    (clean : ∀ piece ∈ pieces, separator ∉ piece.toList) :
    parts separator (joined separator pieces) = pieces := by
  have split : (List.intercalate [separator] (pieces.map String.toList)).splitOn separator =
      pieces.map String.toList := by
    refine List.splitOn_intercalate separator ?_ ?_
    · simpa using clean
    · simpa using some
  rw [parts, joined, String.toList_ofList, split, List.map_map, String.ofList_comp_toList,
    List.map_id]

theorem joined_concat {separator : Char} {pieces : List String} {last : String} (some : pieces ≠ []) :
    joined separator (pieces ++ [last]) =
      joined separator pieces ++ String.singleton separator ++ last := by
  apply String.toList_injective
  induction pieces with
  | nil => contradiction
  | cons first rest ih =>
      cases rest with
      | nil => simp [joined, List.intercalate]
      | cons second rest =>
          have behind := ih (List.cons_ne_nil _ _)
          simp only [joined, List.intercalate, String.toList_ofList, String.toList_append,
            String.toList_singleton, List.map_append, List.cons_append, List.map_cons,
            List.intersperse_cons_cons, List.flatten_cons] at behind ⊢
          rw [behind]
          simp

end Text

namespace Coordinate

variable {coordinate left right parsed : Coordinate} {text : String}

def pieces (coordinate : Coordinate) : List String :=
  [coordinate.group, coordinate.name, coordinate.version, coordinate.kind] ++
    coordinate.classifier.toList

theorem text_eq_joined : coordinate.text = Text.joined ':' coordinate.pieces := by
  apply String.toList_injective
  cases found : coordinate.classifier <;>
    simp [Coordinate.text, pieces, found, Text.joined, List.intercalate]

/-- Read from a text, with any scope. -/
def Parsed (coordinate : Coordinate) : Prop :=
  ∃ text parsed, parse? text = some parsed ∧ coordinate = { parsed with scope := coordinate.scope }

/-- The parts that a coordinate is read from. -/
def partsOf (text : String) : List String :=
  Text.parts ':' (Text.trim text)

/-- Whether some parts make a coordinate. -/
def Complete (parts : List String) : Prop :=
  3 ≤ parts.length ∧ parts.length ≤ 5 ∧ "" ∉ parts

/-- What is read has the parts of its text, and the default type where there are only three. -/
theorem parse?_eq_some :
    parse? text = some coordinate ↔
      Complete (partsOf text) ∧ coordinate.scope = none ∧
        coordinate.pieces =
          partsOf text ++ (if (partsOf text).length = 3 then [defaultKind] else []) := by
  obtain ⟨group, name, version, kind, classifier, scope⟩ := coordinate
  have occupied (parts : List String) : parts.any (· = "") = true ↔ "" ∈ parts := by simp
  unfold parse? Complete partsOf
  generalize Text.parts ':' (Text.trim text) = parts
  simp only [occupied]
  match parts with
  | [] | [_] | [_, _] => simp
  | [_, _, _] =>
      cases classifier with
      | none => grind [pieces]
      | some classifier => simp [pieces]
  | [_, _, _, _] =>
      cases classifier with
      | none => grind [pieces]
      | some classifier => simp [pieces]
  | [_, _, _, _, _] =>
      cases classifier with
      | none => simp [pieces]
      | some classifier => grind [pieces]
  | _ :: _ :: _ :: _ :: _ :: _ :: _ => simp

theorem mem_pieces {piece : String} (read : parse? text = some parsed)
    (member : piece ∈ parsed.pieces) : piece ∈ partsOf text ∨ piece = defaultKind := by
  obtain ⟨_, _, pieces⟩ := parse?_eq_some.mp read
  rw [pieces, List.mem_append] at member
  refine member.imp_right fun added => ?_
  split at added
  · exact List.mem_singleton.mp added
  · cases added

theorem pieces_clean (read : parse? text = some parsed) :
    ∀ piece ∈ parsed.pieces, ':' ∉ piece.toList := by
  intro piece member
  rcases mem_pieces read member with there | rfl
  · exact Text.separator_not_mem_parts there
  · decide

theorem pieces_nonempty (read : parse? text = some parsed) : ∀ piece ∈ parsed.pieces, piece ≠ "" := by
  intro piece member empty
  subst empty
  rcases mem_pieces read member with there | added
  · exact (parse?_eq_some.mp read).1.2.2 there
  · exact absurd added (by decide)

theorem Parsed.pieces_eq (made : coordinate.Parsed) :
    ∃ text parsed, parse? text = some parsed ∧ coordinate.pieces = parsed.pieces := by
  obtain ⟨text, parsed, read, same⟩ := made
  refine ⟨text, parsed, read, ?_⟩
  rw [same]
  rfl

theorem Parsed.clean (made : coordinate.Parsed) :
    ∀ piece ∈ coordinate.pieces, ':' ∉ piece.toList := by
  obtain ⟨text, parsed, read, same⟩ := made.pieces_eq
  rw [same]
  exact pieces_clean read

theorem Parsed.nonempty (made : coordinate.Parsed) : ∀ piece ∈ coordinate.pieces, piece ≠ "" := by
  obtain ⟨text, parsed, read, same⟩ := made.pieces_eq
  rw [same]
  exact pieces_nonempty read

theorem parts_text (made : coordinate.Parsed) :
    Text.parts ':' coordinate.text = coordinate.pieces := by
  rw [text_eq_joined]
  exact Text.parts_joined (by simp [pieces]) made.clean

theorem identity_of_pieces (same : left.pieces = right.pieces) :
    left.identity = right.identity := by
  simp only [pieces, List.cons_append, List.nil_append, List.cons.injEq] at same
  obtain ⟨group, name, version, _, rest⟩ := same
  have classifier : left.classifier = right.classifier := by
    cases here : left.classifier <;> cases there : right.classifier <;> simp_all
  rw [identity, identity, group, name, version, classifier]

/-- Parsed coordinates of one text name one artifact. -/
theorem Parsed.identity_of_text (leftMade : left.Parsed) (rightMade : right.Parsed)
    (same : left.text = right.text) : left.identity = right.identity := by
  apply identity_of_pieces
  rw [← parts_text leftMade, ← parts_text rightMade, same]

end Coordinate

end AppBundle
