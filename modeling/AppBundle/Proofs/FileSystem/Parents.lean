import Mathlib.Data.List.TakeWhile
import AppBundle.Proofs.FileSystem.Components

namespace AppBundle

/-! Parents of paths. Once what carries no meaning is dropped at its end, a path that moves ends with its
last name, and what stands in front of that is its parent.
-/

namespace Path

variable {path base next directory : Path} {text name : RawText} {names : List RawText}

/-- The names on a path that do not stay where they are. -/
abbrev moving (path : Path) : List RawText :=
  moves (path.text.parts slash)

theorem moves_append {first second : List RawText} :
    moves (first ++ second) = moves first ++ moves second :=
  List.filter_append ..

theorem moving_join (relative : next.isAbsolute = false) :
    (base.join next).moving = base.moving ++ next.moving := by
  have steps : stepsOf (base.join next).text = stepsOf base.text ++ stepsOf next.text :=
    stepsOf_join relative
  simp only [stepsOf, filterMap_componentOf?, ← List.map_append] at steps
  exact List.map_injective_iff.mpr componentOf_injective steps

theorem IsName.moving (name : IsName text) : (Path.mk text).moving = [text] := by
  have down : ¬(text = "" ∨ text = ".") := not_or.mpr ⟨name.down.1, name.down.2.1⟩
  rw [Path.moving, name.parts, moves_move down]
  rfl

theorem moving_join_name (name : IsName text) : (base.join ⟨text⟩).moving = base.moving ++ [text] := by
  rw [moving_join (isRelative_name name), name.moving]

theorem moving_trimmed : path.trimmed.moving = path.moving :=
  moves_congr components_trimmed

theorem isAbsolute_trimmed : path.trimmed.isAbsolute = path.isAbsolute :=
  isAbsolute_congr components_trimmed

theorem text_cases (text : RawText) :
    slash ∉ text.bytes ∨
      ∃ front last, slash ∉ last.bytes ∧ text = front ++ "/" ++ last := by
  by_cases separated : slash ∈ text.bytes
  · obtain ⟨backwards, behind, chars, plain⟩ :=
      List.eq_append_cons_of_mem (List.mem_reverse.mpr separated)
    refine .inr ⟨⟨behind.reverse⟩, ⟨backwards.reverse⟩, by simpa using plain, ?_⟩
    apply RawText.ext_bytes
    rw [← List.reverse_inj, chars]
    simp
  · exact .inl separated

theorem moving_separated (front last : RawText) (clean : slash ∉ last.bytes) :
    (Path.mk (front ++ "/" ++ last)).moving = (Path.mk front).moving ++ moves [last] := by
  rw [moving, parts_separated, moves_append, parts_of_clean clean]

theorem bytes_trimmed (path : Path) :
    path.trimmed.text.bytes.reverse = trimBackwards path.text.bytes.reverse := by
  simp [trimmed]

theorem trimmed_ends (last : path.moving.getLast? = some name) :
    slash ∉ name.bytes ∧ ∃ base : Path, path.trimmed = base.join ⟨name⟩ := by
  have fixed := fixed_trimBackwards path.text.bytes.reverse
  rw [← bytes_trimmed] at fixed
  rw [← moving_trimmed] at last
  generalize path.trimmed = whole at last fixed
  obtain ⟨text⟩ := whole
  rcases text_cases text with clean | ⟨front, piece, clean, rfl⟩
  · -- the whole text is the name
    rw [moving, parts_of_clean clean] at last
    obtain ⟨_, rfl⟩ : _ ∧ text = name := by simpa [moves] using last
    exact ⟨clean, ⟨""⟩, by simp [join]⟩
  · have notSeparator : piece ≠ "" := by
      intro empty
      subst empty
      cases chars : front.bytes.reverse with
      | nil =>
          obtain rfl : front = "" := by simpa using chars
          simp [moving, moves] at last
          contradiction
      | cons before rest => exact fixed slash before rest (by simp [chars]) (.inl rfl)
    have notStay : piece ≠ "." := by
      intro same
      subst same
      exact fixed dot slash front.bytes.reverse (by simp) (.inr ⟨rfl, rfl⟩)
    have moves' : ¬(piece = "" ∨ piece = ".") := not_or.mpr ⟨notSeparator, notStay⟩
    rw [moving_separated front piece clean, moves_move moves', List.getLast?_append] at last
    obtain rfl : piece = name := by simpa [moves] using last
    refine ⟨clean, ⟨front ++ "/"⟩, ?_⟩
    simp [join, isRelative_of_clean clean]

theorem trimBackwards_twice (bytes : List UInt8) :
    trimBackwards (trimBackwards bytes) = trimBackwards bytes :=
  trimBackwards_of_fixed (fixed_trimBackwards bytes)

theorem parent?_trimmed : path.trimmed.parent? = path.parent? := by
  rw [parent?, bytes_trimmed, trimBackwards_twice, parent?]

theorem trimBackwards_suffix (bytes : List UInt8) : trimBackwards bytes <:+ bytes := by
  induction bytes using trimBackwards.induct with
  | case1 last before rest dropped ih =>
      rw [trimBackwards, if_pos dropped]
      exact ih.trans (List.suffix_cons ..)
  | case2 last before rest kept => exact ⟨[], by rw [List.nil_append, trimBackwards, if_neg kept]⟩
  | case3 bytes short => exact ⟨[], by rw [List.nil_append, trimBackwards.eq_2 _ short]⟩

theorem trimmed_begins : path.trimmed.text.bytes <+: path.text.bytes := by
  rw [← List.reverse_suffix, bytes_trimmed]
  exact trimBackwards_suffix _

theorem join_begins (name : IsName text) (base : Path) :
    base.text.bytes <+: (base.join ⟨text⟩).text.bytes := by
  rw [join_relative (isRelative_name name), RawText.append_assoc, RawText.bytes_append]
  exact List.prefix_append ..

theorem join_longer (name : IsName text) (base : Path) :
    base.text.size < (base.join ⟨text⟩).text.size := by
  have occupied : 0 < text.size :=
    List.length_pos_iff.mpr (mt RawText.bytes_eq_nil_iff.mp name.down.1)
  rw [join_relative (isRelative_name name)]
  simp only [RawText.size_append]
  omega

theorem size_le_of_prefix {left right : RawText} (shorter : left.bytes <+: right.bytes) :
    left.size ≤ right.size :=
  shorter.length_le

/-- The parent of a path that ends with a name is a trimmed path that lacks this name. -/
theorem parent?_moving (name : IsName text) (moved : path.moving = names ++ [text]) :
    ∃ parent, path.parent? = some parent ∧ parent.trimmed = parent ∧ parent.moving = names ∧
      parent.isAbsolute = path.isAbsolute ∧ parent.text.bytes <+: path.text.bytes ∧
        parent.text.size < path.text.size := by
  have last : path.moving.getLast? = some text := by simp [moved]
  obtain ⟨_, base, ended⟩ := trimmed_ends last
  have whole : path.trimmed.text.bytes <+: path.text.bytes := trimmed_begins
  have front : base.trimmed.text.bytes <+: base.text.bytes := trimmed_begins
  have front' := size_le_of_prefix front
  have whole' := size_le_of_prefix whole
  have longer := join_longer name base
  refine ⟨base.trimmed, ?_, ?_, ?_, ?_, ?_, ?_⟩
  · rw [← parent?_trimmed, ended, parent?_join name]
  · rw [trimmed, bytes_trimmed, trimBackwards_twice, ← bytes_trimmed, List.reverse_reverse]
  · rw [← moving_trimmed, ended, moving_join_name name] at moved
    rw [moving_trimmed]
    exact List.append_cancel_right moved
  · rw [isAbsolute_trimmed, ← isAbsolute_join (isRelative_name name) base, ← ended,
      isAbsolute_trimmed]
  · rw [ended] at whole
    exact front.trans ((join_begins name base).trans whole)
  · rw [ended] at whole'
    omega

/-- A path without a parent is the root, or empty. -/
theorem root_of_parent?_none (outermost : path.parent? = none) (nonempty : path.text ≠ "") :
    path.isAbsolute = true ∧ path.moving = [] := by
  have chars := bytes_trimmed path
  rw [← moving_trimmed, ← isAbsolute_trimmed]
  have trivial : trimBackwards path.text.bytes.reverse = [] ∨
      trimBackwards path.text.bytes.reverse = [slash] := by
    by_contra occupied
    rw [parent?, if_neg occupied] at outermost
    cases outermost
  rcases trivial with empty | root
  · have occupied : path.text.bytes.reverse ≠ [] := by simpa using nonempty
    exact absurd empty (nonempty_trimBackwards occupied)
  · have text : path.trimmed.text = "/" := by
      apply RawText.ext_bytes
      rw [← List.reverse_inj, chars, root]
      rfl
    rw [moving, isAbsolute, text]
    exact ⟨rfl, rfl⟩

/-- Around a path that does not move there is nothing that could be made. -/
theorem parent?_of_still (still : path.moving = []) {parent : Path} (found : path.parent? = some parent) :
    parent.text = "" := by
  have fixed := fixed_trimBackwards path.text.bytes.reverse
  rw [← bytes_trimmed] at fixed
  rw [← moving_trimmed] at still
  rw [← parent?_trimmed, parent?, bytes_trimmed, trimBackwards_twice, ← bytes_trimmed] at found
  generalize path.trimmed = whole at still fixed found
  obtain ⟨text⟩ := whole
  rcases text_cases text with clean | ⟨front, piece, clean, rfl⟩
  · have dropped : text.bytes.reverse.dropWhile (· ≠ slash) = [] := by
      rw [List.dropWhile_eq_nil_iff]
      intro char member
      have different : char ≠ slash := fun same => clean (same ▸ List.mem_reverse.mp member)
      simpa using different
    dsimp only at found
    split at found
    · cases found
    · rw [dropped] at found
      cases found
      rfl
  · rw [moving_separated front piece clean, List.append_eq_nil_iff] at still
    have stays : piece = "" ∨ piece = "." := by
      by_contra moves
      simp [moves_move moves] at still
    rcases stays with rfl | rfl
    · cases chars : front.bytes.reverse with
      | nil => simp [chars] at found
      | cons before rest =>
          exact absurd (.inl rfl) (fixed slash before rest (by simp [chars]))
    · exact absurd (.inr ⟨rfl, rfl⟩) (fixed dot slash front.bytes.reverse (by simp))

/-- A path that goes on from a directory by some names. -/
structure Extends (directory : Path) (names : List RawText) (path : Path) : Prop where
  absolute : path.isAbsolute = directory.isAbsolute
  moving : path.moving = directory.moving ++ names
  plain : ∀ name ∈ names, IsName name

theorem foldl_advance_moves (names : List RawText) (here : Location) :
    (moves names).foldl Location.advance here = names.foldl Location.advance here := by
  induction names generalizing here with
  | nil => rfl
  | cons name rest ih =>
      by_cases stays : name = "" ∨ name = "."
      · rw [moves_stay stays, ih, List.foldl_cons, Location.advance, if_pos stays]
      · rw [moves_move stays, List.foldl_cons, List.foldl_cons, ih]

theorem Extends.placeFrom (goesOn : directory.Extends names path) (base : Location) :
    path.placeFrom base = directory.placeFrom base ++ names := by
  have down : ∀ name ∈ names, name ≠ "" ∧ name ≠ "." ∧ name ≠ ".." :=
    fun name member => (goesOn.plain name member).down
  have moved : moves (path.text.parts slash) = moves (directory.text.parts slash) ++ names :=
    goesOn.moving
  rw [Path.placeFrom, Path.placeFrom, goesOn.absolute, ← foldl_advance_moves, moved,
    List.foldl_append, foldl_advance_moves, foldl_advance_down down]

theorem Extends.refl (directory : Path) : directory.Extends [] directory :=
  ⟨rfl, (List.append_nil _).symm, nofun⟩

theorem Extends.join (goesOn : directory.Extends names path) (name : IsName text) :
    directory.Extends (names ++ [text]) (path.join ⟨text⟩) where
  absolute := (isAbsolute_join (isRelative_name name) path).trans goesOn.absolute
  moving := by rw [moving_join_name name, goesOn.moving, List.append_assoc]
  plain := List.forall_mem_append.mpr ⟨goesOn.plain, List.forall_mem_singleton.mpr name⟩

theorem Extends.trimmed (goesOn : directory.Extends names path) :
    directory.Extends names path.trimmed where
  absolute := isAbsolute_trimmed.trans goesOn.absolute
  moving := moving_trimmed.trans goesOn.moving
  plain := goesOn.plain

theorem Extends.trimmed_ends (goesOn : directory.Extends names path) (last : names.getLast? = some name) :
    ∃ base : Path, path.trimmed = base.join ⟨name⟩ := by
  refine (Path.trimmed_ends ?_).2
  rw [goesOn.moving, List.getLast?_append, last]
  rfl

/-- Without its last name a path goes on by the names before. -/
theorem Extends.around (goesOn : directory.Extends (names ++ [text]) (path.join ⟨text⟩)) :
    directory.Extends names path := by
  have name : IsName text := goesOn.plain text (by simp)
  refine ⟨?_, ?_, fun other member => goesOn.plain other (List.mem_append_left _ member)⟩
  · rw [← goesOn.absolute, isAbsolute_join (isRelative_name name)]
  · have moved := goesOn.moving
    rw [moving_join_name name, ← List.append_assoc] at moved
    exact List.append_cancel_right moved

end Path

end AppBundle
