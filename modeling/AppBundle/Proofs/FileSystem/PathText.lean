import AppBundle.Proofs.FileSystem.Parents

namespace AppBundle

/-! Paths that are texts. Whether a path is one depends on the names that it moves by alone, and only
such a path still means its place after it was written as text.
-/

variable {raw : RawText}

theorem RawText.parts_injective (separator : UInt8) : Function.Injective (parts separator) := by
  intro left right same
  have whole (raw : RawText) :
      List.intercalate [separator] ((raw.parts separator).map RawText.bytes) = raw.bytes := by
    simp [parts, List.map_map, Function.comp_def]
  exact ext_bytes (by rw [← whole left, same, whole right])

theorem RawText.isText_iff_parts :
    raw.isText = true ↔ ∀ piece ∈ raw.parts Path.slash, piece.isText = true := by
  constructor
  · intro isText
    obtain ⟨text, rfl⟩ := isText_iff.mp isText
    rw [parts_ofText, List.forall_mem_map]
    exact fun piece _ => isText_ofText piece
  · intro pieces
    let texts := (raw.parts Path.slash).map RawText.shown
    have parts : texts.map ofText = raw.parts Path.slash := by
      rw [List.map_map]
      refine (List.map_congr_left fun piece member => ?_).trans (List.map_id _)
      exact ofText_shown_iff.mpr (pieces piece member)
    have some : texts ≠ [] := by simpa [texts] using Path.parts_ne_nil raw
    have clean : ∀ text ∈ texts, '/' ∉ text.toList := by
      intro text member
      rw [← slash_mem_ofText]
      exact separator_not_mem_parts (parts ▸ List.mem_map_of_mem member)
    refine isText_iff.mpr ⟨Text.joined '/' texts, parts_injective Path.slash ?_⟩
    rw [parts_ofText, Text.parts_joined some clean, parts]

namespace Path

variable {path base next other parent : Path} {text : RawText} {names : List RawText}

theorem isText_mk (text : String) : (Path.mk text).isText = true :=
  RawText.isText_ofText text

theorem isText_iff : path.isText = true ↔ ∀ name ∈ path.moving, name.isText = true := by
  rw [isText, RawText.isText_iff_parts]
  constructor
  · exact fun pieces name member => pieces name (List.mem_of_mem_filter member)
  · intro names piece member
    by_cases stays : piece = "" ∨ piece = "."
    · rcases stays with rfl | rfl <;> exact RawText.isText_ofText _
    · exact names piece (List.mem_filter.mpr ⟨member, by simpa using stays⟩)

theorem isText_congr (same : path.SameComponents other) : path.isText = other.isText := by
  have names : path.moving = other.moving := moves_congr same
  rw [Bool.eq_iff_iff, isText_iff, isText_iff, names]

theorem isText_join (relative : next.isAbsolute = false) :
    (base.join next).isText = true ↔ base.isText = true ∧ next.isText = true := by
  simp only [isText_iff, moving_join relative, List.forall_mem_append]

theorem isText_join_of (base' : base.isText = true) (next' : next.isText = true) :
    (base.join next).isText = true := by
  cases absolute : next.isAbsolute with
  | true => rwa [join, if_pos absolute]
  | false => exact (isText_join absolute).mpr ⟨base', next'⟩

theorem isText_parent (name : IsName text) (moved : path.moving = names ++ [text])
    (found : path.parent? = some parent) (isText : path.isText = true) : parent.isText = true := by
  obtain ⟨_, around, _, front, _⟩ := parent?_moving name moved
  obtain rfl := Option.some.inj (found.symm.trans around)
  rw [isText_iff, moved, List.forall_mem_append] at isText
  rw [isText_iff, front]
  exact isText.1

theorem mk_shown (isText : path.isText = true) : Path.mk path.shown = path := by
  have text : RawText.ofText path.shown = path.text := RawText.ofText_shown_iff.mpr isText
  rw [text]

/-- A path that was repaired means another place. -/
theorem sameComponents_shown_iff (same : path.SameComponents other) :
    (Path.mk path.shown).SameComponents other ↔ other.isText = true := by
  constructor
  · intro shown
    rw [← isText_congr shown]
    exact isText_mk path.shown
  · intro isText
    rwa [mk_shown ((isText_congr same).trans isText)]

end Path

end AppBundle
