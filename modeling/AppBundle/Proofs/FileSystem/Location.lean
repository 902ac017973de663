import AppBundle.FileSystem.Basic
import AppBundle.Proofs.RawText
import AppBundle.Proofs.Traversal

namespace AppBundle

/-! Where paths lead. The text of a path alone says which place it means, once its relative names are
read from some directory; a file system decides only whether the way to that place exists.
-/

/-- One name followed from a place. -/
def Location.advance (here : Location) (name : RawText) : Location :=
  if name = "" ∨ name = "." then here
  else if name = ".." then here.dropLast
  else here ++ [name]

theorem Location.advance_down {here : Location} {name : RawText}
    (down : name ≠ "" ∧ name ≠ "." ∧ name ≠ "..") : here.advance name = here ++ [name] := by
  simp [advance, down]

namespace Path

/-- The place that a path means, read from a directory. -/
def placeFrom (base : Location) (path : Path) : Location :=
  (path.text.parts slash).foldl Location.advance (if path.isAbsolute then [] else base)

theorem parts_of_absolute {path : Path} (absolute : path.isAbsolute = true) :
    path.text.parts slash = ("" : RawText) :: (path.text.parts slash).tail := by
  have head : path.text.bytes.head? = some slash := by
    simpa [isAbsolute] using absolute
  obtain ⟨rest, chars⟩ : ∃ rest, path.text.bytes = slash :: rest :=
    List.head?_eq_some_iff.mp head
  rw [RawText.parts, chars, List.splitOn_cons_eq_if_modifyHead]
  rfl

theorem isAbsolute_append {left : RawText} (nonempty : left ≠ "") (right : RawText) :
    (Path.mk (left ++ right)).isAbsolute = (Path.mk left).isAbsolute := by
  have chars : left.bytes ≠ [] := by simpa using nonempty
  simp only [isAbsolute, RawText.bytes_append, List.head?_append_of_ne_nil _ chars]

theorem parts_separated (left right : RawText) :
    (left ++ "/" ++ right).parts slash = left.parts slash ++ right.parts slash := by
  have chars : (left ++ "/" ++ right).bytes = left.bytes ++ slash :: right.bytes := by simp
  rw [RawText.parts, chars, List.splitOn_append_cons_self, List.map_append]
  rfl

theorem parts_separator (left : RawText) :
    (left ++ "/").parts slash = left.parts slash ++ [("" : RawText)] := by
  have split := parts_separated left ""
  rwa [RawText.append_empty] at split

theorem placeFrom_separator {left : RawText} (nonempty : left ≠ "") (base : Location) :
    (Path.mk (left ++ "/")).placeFrom base = (Path.mk left).placeFrom base := by
  rw [placeFrom, placeFrom, isAbsolute_append nonempty, parts_separator, List.foldl_append]
  rfl

theorem placeFrom_separated (left right : RawText) (base : Location) :
    (Path.mk (left ++ "/" ++ right)).placeFrom base =
      (right.parts slash).foldl Location.advance ((Path.mk (left ++ "/")).placeFrom base) := by
  have nonempty : left ++ "/" ≠ "" := by simp
  rw [placeFrom, placeFrom, isAbsolute_append nonempty, parts_separated, parts_separator,
    List.foldl_append, List.foldl_append]
  rfl

/-- A joined path is read from where the first one leads. -/
theorem placeFrom_join (base : Location) (first next : Path) :
    (first.join next).placeFrom base = next.placeFrom (first.placeFrom base) := by
  obtain ⟨text⟩ := first
  by_cases absolute : next.isAbsolute = true
  · simp only [join, absolute, if_true, placeFrom]
  · have relative (base : Location) :
        next.placeFrom base = (next.text.parts slash).foldl Location.advance base := by
      simp only [placeFrom, absolute, Bool.false_eq_true, if_false]
    simp only [join, absolute, if_false, Bool.false_eq_true]
    rw [relative]
    -- a separator is written where the first path has a name at its end
    cases last : text.bytes.getLast? with
    | none =>
        have empty : text = "" := by simpa using last
        subst empty
        exact relative base
    | some char =>
        by_cases separated : char = slash
        · obtain ⟨front, chars⟩ := List.getLast?_eq_some_iff.mp last
          have whole : text = ⟨front⟩ ++ "/" := by
            apply RawText.ext_bytes
            simp [chars, separated]
          simp only [separated, if_true]
          rw [whole]
          exact placeFrom_separated ..
        · have nonempty : text ≠ "" := by
            intro empty
            simp [empty] at last
          simp only [separated, if_false]
          rw [placeFrom_separated, placeFrom_separator nonempty]

/-- What is written between a path and a relative one behind it. -/
def separator (path : Path) : RawText :=
  match path.text.bytes.getLast? with
  | none => ""
  | some last => if last = slash then "" else "/"

theorem join_relative {next : Path} (relative : next.isAbsolute = false) (base : Path) :
    base.join next = ⟨base.text ++ base.separator ++ next.text⟩ := by
  rw [join, separator, if_neg (by simp [relative])]
  cases last : base.text.bytes.getLast? with
  | none =>
      have empty : base.text = "" := by simpa using last
      simp [empty]
  | some char =>
      by_cases separated : char = slash
      · simp [separated]
      · simp [separated]

theorem separator_append (front : RawText) {back : RawText} (nonempty : back ≠ "") :
    (Path.mk (front ++ back)).separator = (Path.mk back).separator := by
  have chars : back.bytes ≠ [] := by simpa using nonempty
  rw [separator, separator]
  simp only [RawText.bytes_append, List.getLast?_append_of_ne_nil _ chars]

theorem separator_separated (path : Path) :
    (Path.mk (path.text ++ path.separator)).separator = "" := by
  unfold separator
  cases last : path.text.bytes.getLast? with
  | none =>
      have empty : path.text = "" := by simpa using last
      simp [empty]
  | some char =>
      by_cases separated : char = slash
      · simp [separated, last]
      · simp [separated]

theorem isAbsolute_join {next : Path} (relative : next.isAbsolute = false) (base : Path) :
    (base.join next).isAbsolute = base.isAbsolute := by
  rw [join_relative relative]
  by_cases empty : base.text = ""
  · simpa [separator, empty, isAbsolute] using relative
  · rw [RawText.append_assoc]
    exact isAbsolute_append empty _

theorem nonempty_mk {text : String} (nonempty : text ≠ "") : (Path.mk text).text ≠ "" :=
  RawText.ofText_ne nonempty

theorem nonempty_join {next : Path} (nonempty : next.text ≠ "") (base : Path) :
    (base.join next).text ≠ "" := by
  by_cases absolute : next.isAbsolute = true
  · rwa [join, if_pos absolute]
  · rw [Bool.not_eq_true] at absolute
    rw [join_relative absolute]
    simp [nonempty]

theorem join_assoc (first second third : Path) :
    (first.join second).join third = first.join (second.join third) := by
  by_cases absolute : third.isAbsolute = true
  · simp [join, absolute]
  · rw [Bool.not_eq_true] at absolute
    by_cases rooted : second.isAbsolute = true
    · have behind : (second.join third).isAbsolute = true := by
        rw [isAbsolute_join absolute, rooted]
      have outer : first.join (second.join third) = second.join third := if_pos behind
      have inner : first.join second = second := if_pos rooted
      rw [outer, inner]
    · rw [Bool.not_eq_true] at rooted
      have behind : (second.join third).isAbsolute = false := by
        rw [isAbsolute_join absolute, rooted]
      rw [join_relative absolute, join_relative behind, join_relative rooted,
        join_relative absolute]
      by_cases empty : second.text = ""
      · have bare : second.separator = "" := by simp [separator, empty]
        simp [empty, bare, separator_separated]
      · rw [separator_append _ empty]
        simp [RawText.append_assoc]

theorem parts_of_clean {text : RawText} (clean : slash ∉ text.bytes) : text.parts slash = [text] := by
  rw [RawText.parts, List.splitOn_eq_singleton clean, List.map_singleton]

/-- A text without separators extends the last name of a path. -/
theorem parts_extended (text : RawText) {suffix : RawText} (clean : slash ∉ suffix.bytes) :
    ∃ front last, text.parts slash = front ++ [last] ∧
      (text ++ suffix).parts slash = front ++ [last ++ suffix] := by
  by_cases separated : slash ∈ text.bytes
  · obtain ⟨backwards, behind, chars, plain⟩ :=
      List.eq_append_cons_of_mem (List.mem_reverse.mpr separated)
    have whole : text = ⟨behind.reverse⟩ ++ "/" ++ ⟨backwards.reverse⟩ := by
      apply RawText.ext_bytes
      rw [← List.reverse_inj, chars]
      simp
    have tail : slash ∉ ((⟨backwards.reverse⟩ : RawText)).bytes := by simpa using plain
    have longer : slash ∉ ((⟨backwards.reverse⟩ : RawText) ++ suffix).bytes := by
      simpa [clean] using plain
    have extended : text ++ suffix = ⟨behind.reverse⟩ ++ "/" ++
        ((⟨backwards.reverse⟩ : RawText) ++ suffix) := by
      rw [whole, RawText.append_assoc]
    rw [extended, whole, parts_separated, parts_separated, parts_of_clean tail,
      parts_of_clean longer]
    exact ⟨_, _, rfl, rfl⟩
  · have longer : slash ∉ (text ++ suffix).bytes := by
      simp [separated, clean]
    rw [parts_of_clean separated, parts_of_clean longer]
    exact ⟨[], _, rfl, rfl⟩

theorem down_of_long {text : RawText} (long : 2 < text.size) :
    text ≠ "" ∧ text ≠ "." ∧ text ≠ ".." := by
  refine ⟨fun same => ?_, fun same => ?_, fun same => ?_⟩
  all_goals
    rw [same] at long
    contradiction

/-- A path with a longer last name means another place. -/
theorem placeFrom_extended_ne (path : Path) {suffix : RawText} (clean : slash ∉ suffix.bytes)
    (long : 2 < suffix.size) (base : Location) :
    (Path.mk (path.text ++ suffix)).placeFrom base ≠ path.placeFrom base := by
  obtain ⟨text⟩ := path
  have begun : (Path.mk (text ++ suffix)).isAbsolute = (Path.mk text).isAbsolute := by
    by_cases empty : text = ""
    · have head : suffix.bytes.head? ≠ some slash := fun head =>
        clean (List.mem_of_mem_head? head)
      simpa [isAbsolute, empty] using head
    · exact isAbsolute_append empty suffix
  obtain ⟨front, last, plain, extended⟩ := parts_extended text clean
  have longer : 2 < (last ++ suffix).size := by
    rw [RawText.size_append]
    omega
  have down := down_of_long longer
  rw [placeFrom, placeFrom, begun, plain, extended, List.foldl_append, List.foldl_append]
  generalize front.foldl Location.advance _ = here
  simp only [List.foldl_cons, List.foldl_nil, Location.advance_down down]
  intro same
  -- the shorter name stays, goes up, or leads down by itself
  have lengths := congrArg List.length same
  rw [List.length_append, Location.advance] at lengths
  split at lengths
  · simp at lengths
  · split at lengths
    · simp only [List.length_cons, List.length_nil, List.length_dropLast] at lengths
      omega
    · next stays up =>
        rw [not_or] at stays
        rw [Location.advance_down ⟨stays.1, stays.2, up⟩] at same
        have names := congrArg RawText.size (List.singleton_inj.mp (List.append_cancel_left same))
        rw [RawText.size_append] at names
        omega

section Names

variable {text : RawText} {names : List RawText} {path : Path} {base here : Location}

/-- A single name that leads down. -/
structure IsName (text : RawText) : Prop where
  clean : slash ∉ text.bytes
  down : text ≠ "" ∧ text ≠ "." ∧ text ≠ ".."

theorem foldl_advance_down (down : ∀ name ∈ names, name ≠ "" ∧ name ≠ "." ∧ name ≠ "..") :
    names.foldl Location.advance here = here ++ names := by
  induction names generalizing here with
  | nil => exact (List.append_nil here).symm
  | cons name rest ih =>
      rw [List.foldl_cons, Location.advance_down (down name (List.mem_cons_self ..)),
        ih fun other later => down other (List.mem_cons_of_mem _ later), List.append_assoc]
      rfl

theorem placeFrom_down
    (down : ∀ name ∈ path.text.parts slash, name ≠ "" ∧ name ≠ "." ∧ name ≠ "..") :
    path.placeFrom base = base ++ path.text.parts slash := by
  have relative : path.isAbsolute = false := by
    by_contra absolute
    have parts := parts_of_absolute (by simpa using absolute)
    exact (down "" (parts ▸ List.mem_cons_self ..)).1 rfl
  rw [placeFrom, foldl_advance_down down, relative]
  rfl

theorem IsName.parts (name : IsName text) : text.parts slash = [text] :=
  parts_of_clean name.clean

theorem IsName.placeFrom (name : IsName text) : (Path.mk text).placeFrom base = base ++ [text] := by
  have down : ∀ piece ∈ text.parts slash, piece ≠ "" ∧ piece ≠ "." ∧ piece ≠ ".." := by
    simpa [name.parts] using name.down
  rw [placeFrom_down down, name.parts]

theorem isName_ofText {text : String} (clean : '/' ∉ text.toList)
    (down : text ≠ "" ∧ text ≠ "." ∧ text ≠ "..") : IsName text :=
  ⟨by simpa using clean, by simpa using down⟩

theorem isName_of_dash {text : String} (clean : '/' ∉ text.toList) (dash : '-' ∈ text.toList) :
    IsName text := by
  refine isName_ofText clean ⟨fun same => ?_, fun same => ?_, fun same => ?_⟩
  all_goals
    rw [same] at dash
    revert dash
    decide

end Names

end Path

namespace FileSystem

variable {files before after : FileSystem} {path : Path} {here location directory : Location}
  {name : RawText} {names first second : List RawText}

/-- The place that a path means, whether or not there is a way to it. -/
def destination (files : FileSystem) (path : Path) : Location :=
  path.placeFrom files.workingDirectory

theorem destination_eq_foldl (files : FileSystem) (path : Path) :
    files.destination path = (files.start path).2.foldl Location.advance (files.start path).1 := by
  unfold destination Path.placeFrom start
  by_cases absolute : path.isAbsolute = true
  · simp only [absolute, if_true]
    rw [Path.parts_of_absolute absolute]
    rfl
  · simp only [absolute, Bool.false_eq_true, if_false]

theorem destination_congr (same : after.workingDirectory = before.workingDirectory) (path : Path) :
    after.destination path = before.destination path := by
  rw [destination, destination, same]

theorem follow_ok (led : files.follow here names = .ok location) :
    location = names.foldl Location.advance here := by
  induction names generalizing here with
  | nil =>
      cases led
      rfl
  | cons name rest ih =>
      rw [follow] at led
      rw [List.foldl_cons, Location.advance]
      split at led
      · contradiction
      · contradiction
      · split at led
        · next stays => simpa [stays] using ih led
        · next moves =>
            split at led
            · next up => simpa [moves, up] using ih led
            · next down =>
                split at led
                · contradiction
                · simpa [moves, down] using ih led

theorem follow_append :
    files.follow here (first ++ second) =
      files.follow here first >>= fun there => files.follow there second := by
  induction first generalizing here with
  | nil => rfl
  | cons name rest ih =>
      simp only [List.cons_append, follow, ih]
      repeat' split
      all_goals rfl

/-- A last `.` asks for a directory and stays there. -/
theorem follow_into (led : files.follow here (names ++ [("." : RawText)]) = .ok location) :
    files.follow here names = .ok location ∧ files.entryAt? location = some .directory := by
  rw [follow_append, bind_ok] at led
  obtain ⟨there, reached, stayed⟩ := led
  rw [follow] at stayed
  split at stayed
  · contradiction
  · contradiction
  · next isDirectory =>
      cases stayed
      exact ⟨reached, isDirectory⟩

theorem follow_down (isDirectory : files.entryAt? directory = some .directory)
    (down : name ≠ "" ∧ name ≠ "." ∧ name ≠ "..") (short : name.size ≤ nameLimit) :
    files.follow directory [name] = .ok (directory ++ [name]) := by
  simp [follow, isDirectory, down, Nat.not_lt.mpr short]

theorem locate_ok (located : files.locate path = .ok location) :
    admits path = true ∧ path.text ≠ "" ∧
      files.follow (files.start path).1 (files.start path).2 = .ok location := by
  unfold locate at located
  split at located
  · contradiction
  · next admitted =>
      split at located
      · contradiction
      · next nonempty => exact ⟨by simpa using admitted, nonempty, located⟩

/-- A path leads down from a directory by its last name, whether or not that exists. -/
theorem locate_down (admitted : admits path = true) (nonempty : path.text ≠ "")
    (last : (files.start path).2.getLast? = some name)
    (led : files.follow (files.start path).1 (files.start path).2.dropLast = .ok directory)
    (isDirectory : files.entryAt? directory = some .directory)
    (down : name ≠ "" ∧ name ≠ "." ∧ name ≠ "..") (short : name.size ≤ nameLimit) :
    files.locate path = .ok (directory ++ [name]) := by
  unfold locate
  simp only [admitted, nonempty, Bool.not_true, Bool.false_eq_true, if_false]
  rw [← List.dropLast_append_getLast? name last, follow_append, led]
  exact follow_down isDirectory down short

theorem destination_of_locate (located : files.locate path = .ok location) :
    location = files.destination path := by
  obtain ⟨_, _, led⟩ := locate_ok located
  rw [destination_eq_foldl]
  exact follow_ok led

end FileSystem

end AppBundle
