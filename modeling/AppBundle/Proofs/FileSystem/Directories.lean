import Mathlib.Data.List.DropRight
import AppBundle.Proofs.FileSystem.Parents

namespace AppBundle.FileSystem

/-! Making directories while others write. A directory is made where another file system, which this
one may grow into, has one too: then nothing can be in the way, and at worst the way there is missing.
-/

open AppBundle.Path

variable {files before after made : FileSystem} {path other base directory : Path}
  {here location : Location} {text name : RawText} {names : List RawText} {content : ByteArray}

theorem start_congr (files : FileSystem) (absolute : path.isAbsolute = other.isAbsolute) :
    (files.start path).1 = (files.start other).1 := by
  unfold start
  rw [absolute]
  split <;> rfl

theorem follow_moves_iff (isDirectory : files.entryAt? location = some .directory) :
    files.follow here (moves names) = .ok location ↔ files.follow here names = .ok location := by
  refine ⟨fun led => ?_, follow_moves⟩
  induction names generalizing here with
  | nil => exact led
  | cons name rest ih =>
      by_cases stays : name = "" ∨ name = "."
      · rw [moves_stay stays] at led
        have onwards := ih led
        have here' : files.entryAt? here = some .directory := by
          cases rest with
          | nil =>
              cases onwards
              exact isDirectory
          | cons next rest => exact directory_of_follow onwards
        exact follow_cons.mpr ⟨here, (follow_stay stays).mpr ⟨here', rfl⟩, onwards⟩
      · rw [moves_move stays] at led
        obtain ⟨next, stepped, led⟩ := follow_cons.mp led
        exact follow_cons.mpr ⟨next, stepped, ih led⟩

/-- Names that lead to a directory. -/
def Opens (files : FileSystem) (here : Location) (names : List RawText) : Prop :=
  ∃ location, files.follow here names = .ok location ∧ files.entryAt? location = some .directory

theorem opens_moves : files.Opens here (moves names) ↔ files.Opens here names :=
  exists_congr fun _ => and_congr_left fun isDirectory => follow_moves_iff isDirectory

theorem Opens.front {behind : List RawText} (opened : files.Opens here (names ++ behind)) :
    files.Opens here names := by
  obtain ⟨location, led, found⟩ := opened
  rw [follow_append] at led
  obtain ⟨there, reached, onwards⟩ := bind_ok.mp led
  refine ⟨there, reached, ?_⟩
  cases behind with
  | nil =>
      cases onwards
      exact found
  | cons name rest => exact directory_of_follow onwards

theorem Grows.opens (grows : before.Grows after) (opened : before.Opens here names) :
    after.Opens here names := by
  obtain ⟨location, led, found⟩ := opened
  exact ⟨location, grows.follow led, grows.directories location found⟩

theorem locate_of_moving (admitted : admits path = true) (nonempty : path.text ≠ "")
    (led : files.follow (files.start path).1 path.moving = .ok location)
    (found : files.entryAt? location = some .directory) : files.locate path = .ok location := by
  have names : moves (files.start path).2 = path.moving := (files.start_names path).1
  rw [← names, follow_moves_iff found] at led
  simpa [locate, admitted, nonempty] using led

theorem isDirectory_iff :
    files.isDirectory path = true ↔
      admits path = true ∧ path.text ≠ "" ∧ files.Opens (files.start path).1 path.moving := by
  constructor
  · intro isDirectory
    unfold FileSystem.isDirectory find? at isDirectory
    split at isDirectory
    · next location located =>
        obtain ⟨admitted, nonempty, led⟩ := locate_ok located
        have moved := follow_moves led
        rw [(files.start_names path).1] at moved
        exact ⟨admitted, nonempty, location, moved, by simpa using isDirectory⟩
    · cases isDirectory
  · rintro ⟨admitted, nonempty, location, led, isDirectory⟩
    have located := locate_of_moving admitted nonempty led isDirectory
    simp [FileSystem.isDirectory, find?, located, isDirectory]

theorem entryAt?_of_isDirectory (isDirectory : files.isDirectory path = true) :
    files.entryAt? (files.destination path) = some .directory := by
  obtain ⟨admitted, nonempty, location, led, found⟩ := isDirectory_iff.mp isDirectory
  rwa [← destination_of_locate (locate_of_moving admitted nonempty led found)]

theorem isDirectory_of_moving (isDirectory : files.isDirectory other = true)
    (absolute : path.isAbsolute = other.isAbsolute) (moved : path.moving = other.moving)
    (admitted : admits path = true) (nonempty : path.text ≠ "") : files.isDirectory path = true := by
  obtain ⟨_, _, opened⟩ := isDirectory_iff.mp isDirectory
  rw [← start_congr files absolute, ← moved] at opened
  exact isDirectory_iff.mpr ⟨admitted, nonempty, opened⟩

theorem Grows.isDirectory (grows : before.Grows after) (isDirectory : before.isDirectory path = true) :
    after.isDirectory path = true := by
  obtain ⟨admitted, nonempty, opened⟩ := isDirectory_iff.mp isDirectory
  refine isDirectory_iff.mpr ⟨admitted, nonempty, ?_⟩
  rw [grows.start]
  exact grows.opens opened

theorem Grows.opens_of_isDirectory (grows : before.Grows after)
    (isDirectory : after.isDirectory path = true) :
    after.Opens (before.start path).1 path.moving := by
  rw [← grows.start]
  exact (isDirectory_iff.mp isDirectory).2.2

/-- On a way that is there later nothing is in the way, but some of it may be missing. -/
theorem Grows.follow_back (grows : before.Grows after) (led : after.follow here names = .ok location) :
    before.follow here names = .ok location ∨ before.follow here names = .error .missing := by
  induction names generalizing here with
  | nil => exact .inl led
  | cons name rest ih =>
      have later := directory_of_follow led
      rw [FileSystem.follow] at led ⊢
      cases found : before.entryAt? here with
      | none => exact .inr rfl
      | some entry =>
          cases entry with
          | file content =>
              have still := grows.files here (by simp [contentAt?, found])
              simp [contentAt?, later] at still
          | directory =>
              simp only [later] at led ⊢
              split at led
              · next stays =>
                  rw [if_pos stays]
                  exact ih led
              · next moves =>
                  rw [if_neg moves]
                  split at led
                  · next up =>
                      rw [if_pos up]
                      exact ih led
                  · next down =>
                      rw [if_neg down]
                      split at led
                      · cases led
                      · next short =>
                          rw [if_neg short]
                          exact ih led

theorem moves_rdropWhile (names : List RawText) :
    moves (names.rdropWhile (· = ("" : RawText))) = moves names := by
  induction names using List.reverseRecOn with
  | nil => rfl
  | append_singleton front last ih =>
      by_cases empty : last = ""
      · rw [List.rdropWhile_concat_pos _ _ _ (by simpa using empty), ih, moves_append,
          moves_stay (.inl empty)]
        exact (List.append_nil _).symm
      · rw [List.rdropWhile_concat_neg _ _ _ (by simpa using empty)]

theorem ne_empty_of_rdropWhile (last : (names.rdropWhile (· = ("" : RawText))).getLast? = some name) :
    name ≠ "" := by
  have occupied : names.rdropWhile (· = ("" : RawText)) ≠ [] := by
    intro empty
    simp [empty] at last
  have kept := List.rdropWhile_last_not (fun name : RawText => decide (name = "")) names occupied
  rw [List.getLast?_eq_some_getLast occupied] at last
  cases last
  simpa using kept

theorem newLocation_eq (last : names.getLast? = some name) :
    files.newLocation here names =
      files.follow here (names.dropLast ++ [("." : RawText)]) >>= fun directory =>
        if name = "." ∨ name = ".." then .error .taken
        else if name.size > nameLimit then .error .blocked
        else .ok (directory ++ [name]) := by
  simp only [newLocation, last]
  congr 1

theorem makeDirectory_eq (admitted : admits path = true) (nonempty : path.text ≠ "") :
    files.makeDirectory path =
      files.newLocation (files.start path).1 ((files.start path).2.rdropWhile (· = ("" : RawText))) >>=
        fun location =>
          if (files.entryAt? location).isSome then .error .taken
          else .ok (files.put location .directory) := by
  simp only [makeDirectory, admitted, nonempty]
  congr 1

theorem follow_dropLast (last : names.getLast? = some name)
    (led : files.follow here names = .ok location) :
    ∃ directory, files.follow here (names.dropLast ++ [("." : RawText)]) = .ok directory ∧
      files.entryAt? directory = some .directory ∧ files.follow directory [name] = .ok location := by
  rw [← List.dropLast_append_getLast? name last, follow_append] at led
  obtain ⟨directory, reached, stepped⟩ := bind_ok.mp led
  have isDirectory := directory_of_follow stepped
  refine ⟨directory, ?_, isDirectory, stepped⟩
  rw [follow_append, bind_ok]
  exact ⟨directory, reached, (follow_stay (.inr rfl)).mpr ⟨isDirectory, rfl⟩⟩

theorem follow_name (led : files.follow here [name] = .ok location)
    (moves : ¬(name = "" ∨ name = ".")) (down : name ≠ "..") :
    name.size ≤ nameLimit ∧ location = here ++ [name] := by
  rw [follow] at led
  split at led
  · cases led
  · cases led
  · rw [if_neg moves, if_neg down] at led
    split at led
    · cases led
    · next short =>
        cases led
        exact ⟨Nat.not_lt.mp short, rfl⟩

theorem makeDirectory_of_isDirectory (isDirectory : files.isDirectory path = true) :
    files.makeDirectory path = .error .taken := by
  obtain ⟨admitted, nonempty, location, led, found⟩ := isDirectory_iff.mp isDirectory
  have names : moves ((files.start path).2.rdropWhile (· = ("" : RawText))) = path.moving := by
    rw [moves_rdropWhile]
    exact (files.start_names path).1
  rw [← names, follow_moves_iff found] at led
  rw [makeDirectory_eq admitted nonempty]
  cases last : ((files.start path).2.rdropWhile (· = ("" : RawText))).getLast? with
  | none =>
      simp only [newLocation, last]
      rfl
  | some name =>
      obtain ⟨directory, reached, _, stepped⟩ := follow_dropLast last led
      rw [newLocation_eq last, reached]
      by_cases stays : name = "." ∨ name = ".."
      · simp only [bind, Except.bind, stays, if_true]
      · obtain ⟨notStay, notUp⟩ := not_or.mp stays
        have occupied := ne_empty_of_rdropWhile last
        obtain ⟨short, rfl⟩ := follow_name stepped (not_or.mpr ⟨occupied, notStay⟩) notUp
        simp only [bind, Except.bind, stays, Nat.not_lt.mpr short, if_false, found,
          Option.isSome_some, if_true]

theorem ancestors_cons (fuel : Nat) (path : Path) : ∃ outer, ancestors fuel path = path :: outer := by
  cases fuel with
  | zero => exact ⟨[], rfl⟩
  | succ fuel =>
      rw [ancestors]
      split
      · exact ⟨_, rfl⟩
      · exact ⟨[], rfl⟩

theorem makeNested_of_isDirectory {fuel : Nat} (isDirectory : files.isDirectory path = true) :
    files.makeNested (ancestors fuel path) = (files, true) := by
  obtain ⟨outer, paths⟩ := ancestors_cons fuel path
  rw [paths, makeNested]
  split
  · rfl
  · simp only [makeDirectory_of_isDirectory isDirectory, isDirectory]

theorem makeDirectories_of_isDirectory (isDirectory : files.isDirectory path = true) :
    files.makeDirectories path = (files, true) :=
  makeNested_of_isDirectory isDirectory

/-- One directory was made where the path leads, and nothing else. -/
theorem makeDirectory_makes (done : files.makeDirectory path = .ok made) :
    admits path = true ∧ files.entryAt? (files.destination path) = none ∧
      made = files.put (files.destination path) .directory ∧ made.isDirectory path = true := by
  have grows := (expands_makeDirectory done).grows
  obtain ⟨admitted, nonempty⟩ : admits path = true ∧ path.text ≠ "" := by
    unfold makeDirectory at done
    dsimp only at done
    split at done
    · contradiction
    · next admitted =>
        split at done
        · contradiction
        · next nonempty => exact ⟨by simpa using admitted, nonempty⟩
  rw [makeDirectory_eq admitted nonempty] at done
  obtain ⟨location, free, done⟩ := bind_ok.mp done
  obtain ⟨directory, name, last, reached, isDirectory, notStay, notUp, short, rfl⟩ :=
    newLocation_ok free
  split at done
  · cases done
  · next vacant =>
      cases done
      have down := And.intro (ne_empty_of_rdropWhile last) (And.intro notStay notUp)
      have led := grows.follow reached
      have stepped := follow_down (grows.directories _ isDirectory) down short
      have whole := List.dropLast_append_getLast? name last
      have arrives := follow_append.trans (bind_ok.mpr ⟨directory, led, stepped⟩)
      rw [whole] at arrives
      have moved := follow_moves arrives
      rw [moves_rdropWhile, (files.start_names path).1, ← grows.start] at moved
      have found : (files.put (directory ++ [name]) .directory).entryAt? (directory ++ [name]) =
          some .directory := by
        simp [entryAt?_put]
      have leads := destination_of_locate (locate_of_moving admitted nonempty moved found)
      rw [grows.destination] at leads
      rw [← leads]
      exact ⟨admitted, by simpa using vacant, rfl,
        isDirectory_iff.mpr ⟨admitted, nonempty, _, moved, found⟩⟩

/-- A path that has a parent leads to a directory once it was made. -/
theorem isDirectory_of_makeDirectories (nonempty : path.text ≠ "") (inner : path.parent?.isSome = true)
    (done : files.makeDirectories path = (made, true)) : made.isDirectory path = true := by
  obtain ⟨outer, paths⟩ := ancestors_cons path.text.size path
  have named : ¬(path.text = "" ∨ path.parent?.isNone) := by
    simpa [nonempty] using Option.isSome_iff_ne_none.mp inner
  rw [makeDirectories, paths, makeNested, if_neg named] at done
  split at done
  · next made ok =>
      cases done
      exact (makeDirectory_makes ok).2.2.2
  · next taken =>
      obtain ⟨rfl, isDirectory⟩ := Prod.mk.inj done
      exact isDirectory
  · cases done
  · split at done
    · cases done
    · split at done
      · next made ok =>
          cases done
          exact (makeDirectory_makes ok).2.2.2
      · obtain ⟨rfl, isDirectory⟩ := Prod.mk.inj done
        exact isDirectory
      · cases done

theorem rdropWhile_of_last (last : names.getLast? = some name) (nonempty : name ≠ "") :
    names.rdropWhile (· = ("" : RawText)) = names := by
  rw [← List.dropLast_append_getLast? name last, List.rdropWhile_concat_neg]
  simpa using nonempty

theorem getLast?_start (files : FileSystem) (name : IsName text) :
    (files.start (base.join ⟨text⟩)).2.getLast? = some text := by
  rw [(files.start_names _).2, getLast?_parts_join, name.parts]
  rfl

theorem newLocation_within (grows : before.Grows after) (name : IsName text)
    (located : after.locate (base.join ⟨text⟩) = .ok location) :
    let start := before.start (base.join ⟨text⟩)
    before.newLocation start.1 start.2 = .ok location ∨
      before.newLocation start.1 start.2 = .error .missing ∧ ¬before.Opens start.1 base.moving := by
  intro start
  have last : start.2.getLast? = some text := getLast?_start before name
  have moved : moves start.2 = base.moving ++ [text] :=
    (before.start_names _).1.trans (moving_join_name name)
  have notStay : ¬(text = "" ∨ text = ".") := not_or.mpr ⟨name.down.1, name.down.2.1⟩
  have notUp : ¬(text = "." ∨ text = "..") := not_or.mpr name.down.2
  obtain ⟨_, _, led⟩ := locate_ok located
  rw [grows.start] at led
  obtain ⟨directory, reached, isDirectory, stepped⟩ := follow_dropLast last led
  obtain ⟨short, rfl⟩ := follow_name stepped notStay name.down.2.2
  rw [newLocation_eq last]
  rcases grows.follow_back reached with here | missing
  · refine .inl ?_
    rw [here]
    simp only [bind, Except.bind, notUp, Nat.not_lt.mpr short, if_false]
  · refine .inr ⟨?_, fun opened => ?_⟩
    · rw [missing]
      rfl
    · -- the names before the last one are those of the directory around it
      have front : moves (start.2.dropLast ++ [("." : RawText)]) = base.moving := by
        rw [← List.dropLast_append_getLast? text last, moves_append, moves_move notStay] at moved
        rw [moves_append, List.append_cancel_right moved]
        exact List.append_nil _
      rw [← front, opens_moves] at opened
      obtain ⟨_, led, _⟩ := opened
      rw [missing] at led
      cases led

theorem Grows.put_directory (grows : before.Grows after) (free : before.entryAt? location = none)
    (there : after.entryAt? location = some .directory) :
    (before.put location .directory).Grows after := by
  have below : location ≠ [] := by
    rintro rfl
    cases free
  refine ⟨grows.workingDirectory, fun other isDirectory => ?_, fun other isFile => ?_⟩
  · rw [entryAt?_put below] at isDirectory
    split at isDirectory
    · next same => rw [same, there]
    · exact grows.directories other isDirectory
  · refine grows.files other ?_
    rw [contentAt?, entryAt?_put below] at isFile
    split at isFile
    · next content found =>
        split at found
        · cases found
        · simp [contentAt?, found]
    · cases isFile

theorem Grows.put_file {kept : ByteArray} (grows : before.Grows after)
    (free : before.entryAt? location ≠ some .directory)
    (found : after.contentAt? location = some kept) :
    (before.put location (.file content)).Grows after := by
  have below : location ≠ [] := by
    rintro rfl
    exact free rfl
  have puts : before.Puts location content (before.put location (.file content)) :=
    ⟨rfl, free, fun other => entryAt?_put below⟩
  refine ⟨grows.workingDirectory, fun other isDirectory => ?_, fun other isFile => ?_⟩
  · rw [puts.entries] at isDirectory
    split at isDirectory
    · cases isDirectory
    · exact grows.directories other isDirectory
  · rw [puts.contentAt?] at isFile
    split at isFile
    · next same => rw [same, found, Option.isSome_some]
    · exact grows.files other isFile

theorem locate_of_room (admitted : admits (base.join ⟨text⟩) = true) (name : IsName text)
    (room : files.newLocation (files.start (base.join ⟨text⟩)).1 (files.start (base.join ⟨text⟩)).2 =
      .ok location) : files.locate (base.join ⟨text⟩) = .ok location := by
  obtain ⟨directory, last, ended, led, isDirectory, notStay, notUp, short, rfl⟩ := newLocation_ok room
  have same : text = last := Option.some.inj ((getLast?_start files name).symm.trans ended)
  have down : last ≠ "" ∧ last ≠ "." ∧ last ≠ ".." := same ▸ name.down
  exact locate_down admitted (nonempty_join name.down.1 base) ended led isDirectory down short

/-- A directory that is there later can be made, unless it is there or one around it is missing. -/
theorem makeDirectory_within (grows : before.Grows after) (name : IsName text)
    (there : after.isDirectory (base.join ⟨text⟩) = true) :
    let path := base.join ⟨text⟩
    (∃ made, before.makeDirectory path = .ok made ∧ made.Grows after) ∨
      (before.makeDirectory path = .error .taken ∧ before.isDirectory path = true) ∨
        (before.makeDirectory path = .error .missing ∧ ¬before.Opens (before.start path).1 base.moving) := by
  intro path
  obtain ⟨admitted, nonempty, location, led, found⟩ := isDirectory_iff.mp there
  have located := locate_of_moving admitted nonempty led found
  have last : (before.start (base.join ⟨text⟩)).2.getLast? = some text := getLast?_start before name
  rw [makeDirectory_eq admitted nonempty, rdropWhile_of_last last name.down.1]
  rcases newLocation_within grows name located with room | ⟨missing, closed⟩
  · rw [room]
    cases entry : before.entryAt? location with
    | none =>
        refine .inl ⟨before.put location .directory, ?_, grows.put_directory entry found⟩
        simp [bind, Except.bind, entry]
    | some entry' =>
        refine .inr (.inl ⟨by simp [bind, Except.bind, entry], ?_⟩)
        have here := locate_of_room admitted name room
        cases entry' with
        | file content =>
            have still := grows.files location (by simp [contentAt?, entry])
            simp [contentAt?, found] at still
        | directory => simp [FileSystem.isDirectory, find?, path, here, entry]
  · refine .inr (.inr ⟨?_, closed⟩)
    rw [missing]
    rfl

theorem admits_shorter (admitted : admits path = true)
    (shorter : other.text.bytes <+: path.text.bytes) : admits other = true := by
  obtain ⟨behind, whole⟩ := shorter
  simp only [admits, RawText.size, ← whole, List.contains_append, List.length_append, Bool.not_or,
    Bool.and_eq_true, decide_eq_true_eq] at admitted ⊢
  exact ⟨admitted.1.1, decide_eq_true (Nat.le_of_add_right_le admitted.2)⟩

theorem isDirectory_trimmed (isDirectory : files.isDirectory path = true) :
    files.isDirectory path.trimmed = true := by
  obtain ⟨admitted, nonempty, _⟩ := isDirectory_iff.mp isDirectory
  apply isDirectory_of_moving isDirectory isAbsolute_trimmed moving_trimmed
  · exact admits_shorter admitted trimmed_begins
  · intro empty
    have chars := bytes_trimmed path
    rw [empty] at chars
    exact nonempty_trimBackwards (by simpa using nonempty) chars.symm

theorem makeNested_around {outer : List Path} {around : FileSystem}
    (named : ¬(path.text = "" ∨ path.parent?.isNone))
    (missing : before.makeDirectory path = .error .missing)
    (done : before.makeNested outer = (around, true))
    (room : around.makeDirectory path ≠ .error .missing) :
    before.makeNested (path :: outer) = around.makeNested (path :: outer) := by
  rw [makeNested, makeNested, if_neg named, if_neg named]
  simp only [missing, done]
  cases outcome : around.makeDirectory path with
  | ok made => rfl
  | error reason =>
      cases reason with
      | missing => exact absurd outcome room
      | _ => rfl

/-- A directory that is there later is made at once where those around it are there. -/
theorem makeNested_reaches {outer : List Path} (grows : before.Grows after) (name : IsName text)
    (there : after.isDirectory (base.join ⟨text⟩) = true) :
    let path := base.join ⟨text⟩
    (before.makeDirectory path = .error .missing ∧ ¬before.Opens (before.start path).1 base.moving) ∨
      before.makeDirectory path ≠ .error .missing ∧ ∃ made,
        before.makeNested (path :: outer) = (made, true) ∧ made.Grows after ∧
          made.Opens (before.start path).1 path.moving := by
  intro path
  have named : ¬(path.text = "" ∨ path.parent?.isNone) := by
    simp [path, nonempty_join name.down.1, parent?_join name]
  rw [makeNested, if_neg named]
  rcases makeDirectory_within grows name there with
    ⟨made, done, within⟩ | ⟨taken, isDirectory⟩ | missing
  · have grown := (expands_makeDirectory done).grows
    have opens := grown.opens_of_isDirectory (makeDirectory_makes done).2.2.2
    simp only [path, done]
    exact .inr ⟨by simp, made, rfl, within, opens⟩
  · have opens := (Grows.refl before).opens_of_isDirectory isDirectory
    simp only [path, taken, isDirectory]
    exact .inr ⟨by simp, before, rfl, grows, opens⟩
  · exact .inl missing

/-- A directory that is there later can be made with those around it that are missing, up to one that
is there already. -/
theorem makeNested_within {fuel : Nat} (opened : before.isDirectory directory = true)
    (goesOn : directory.Extends names path)
    (ends : ∀ name ∈ names.getLast?, ∃ base : Path, path = base.join ⟨name⟩)
    (grows : before.Grows after) (admitted : admits path = true)
    (there : after.Opens (before.start path).1 path.moving) (fits : path.text.size ≤ fuel) :
    ∃ made, before.makeNested (ancestors fuel path) = (made, true) ∧ made.Grows after ∧
      made.Opens (before.start path).1 path.moving := by
  induction names using List.reverseRecOn generalizing path fuel with
  | nil =>
      have here : before.Opens (before.start path).1 path.moving := by
        rw [goesOn.moving, List.append_nil, before.start_congr goesOn.absolute]
        exact (isDirectory_iff.mp opened).2.2
      refine ⟨before, ?_, grows, here⟩
      by_cases empty : path.text = ""
      · obtain ⟨outer, paths⟩ := ancestors_cons fuel path
        simp [paths, makeNested, empty]
      · exact makeNested_of_isDirectory (isDirectory_iff.mpr ⟨admitted, empty, here⟩)
  | append_singleton front last ih =>
      obtain ⟨base, rfl⟩ := ends last (by simp)
      have name : IsName last := goesOn.plain last (by simp)
      have nonempty : (base.join ⟨last⟩).text ≠ "" := nonempty_join name.down.1 base
      have later : after.isDirectory (base.join ⟨last⟩) = true := by
        rw [isDirectory_iff, grows.start]
        exact ⟨admitted, nonempty, there⟩
      have parent := parent?_join name base
      cases fuel with
      | zero => exact absurd (RawText.size_eq_zero_iff.mp (Nat.le_zero.mp fits)) nonempty
      | succ fuel =>
          rw [ancestors, parent]
          rcases makeNested_reaches grows name later with ⟨missing, _⟩ | ⟨_, reached⟩
          · -- the directory around it is made first, and then there is room for this one
            have around : directory.Extends front base.trimmed := goesOn.around.trimmed
            have origin : (before.start base.trimmed).1 = (before.start (base.join ⟨last⟩)).1 :=
              before.start_congr (around.absolute.trans goesOn.absolute.symm)
            have shorter : base.trimmed.text.bytes <+: (base.join ⟨last⟩).text.bytes :=
              trimmed_begins.trans (join_begins name base)
            have there' : after.Opens (before.start base.trimmed).1 base.trimmed.moving := by
              rw [moving_join_name name, ← origin, ← moving_trimmed] at there
              exact there.front
            have fits' : base.trimmed.text.size ≤ fuel := by
              have trimmed :=
                size_le_of_prefix (trimmed_begins : base.trimmed.text.bytes <+: base.text.bytes)
              have longer := join_longer name base
              omega
            obtain ⟨made, done, within, opened'⟩ :=
              ih around (fun _ => goesOn.around.trimmed_ends) (admits_shorter admitted shorter) there' fits'
            have expands : before.Expands (before.makeNested (ancestors fuel base.trimmed)).1 :=
              expands_makeNested
            rw [done] at expands
            rw [origin, moving_trimmed, ← expands.grows.start] at opened'
            have named : ¬((base.join ⟨last⟩).text = "" ∨ (base.join ⟨last⟩).parent?.isNone) := by
              simp [nonempty, parent]
            rcases makeNested_reaches within name later with ⟨_, closed⟩ | ⟨room, reached⟩
            · exact absurd opened' closed
            · rw [makeNested_around named missing done room, ← expands.grows.start]
              exact reached
          · exact reached

theorem makeDirectories_within (opened : before.isDirectory directory = true)
    (goesOn : directory.Extends names path)
    (ends : ∀ name ∈ names.getLast?, ∃ base : Path, path = base.join ⟨name⟩)
    (grows : before.Grows after) (there : after.isDirectory path = true) :
    ∃ made, before.makeDirectories path = (made, true) ∧ made.Grows after ∧
      made.isDirectory path = true := by
  obtain ⟨admitted, nonempty, opens⟩ := isDirectory_iff.mp there
  rw [grows.start] at opens
  obtain ⟨made, done, within, opened'⟩ :=
    makeNested_within opened goesOn ends grows admitted opens (Nat.le_refl _)
  have expands : before.Expands (before.makeDirectories path).1 := expands_makeDirectories
  rw [makeDirectories, done] at expands
  rw [← expands.grows.start] at opened'
  exact ⟨made, done, within, isDirectory_iff.mpr ⟨admitted, nonempty, opened'⟩⟩

/-- A file that is there later can be written once its directory is there. -/
theorem write?_within (opened : before.isDirectory base = true) (name : IsName text)
    (grows : before.Grows after) (there : (after.read? (base.join ⟨text⟩)).isSome = true)
    (content : ByteArray) :
    ∃ written, before.write? (base.join ⟨text⟩) content = some written ∧ written.Grows after := by
  obtain ⟨kept, read⟩ := Option.isSome_iff_exists.mp there
  obtain ⟨located, found⟩ := read?_eq_some.mp read
  generalize after.destination (base.join ⟨text⟩) = location at located found
  obtain ⟨admitted, nonempty, _⟩ := locate_ok located
  have origin : (before.start base).1 = (before.start (base.join ⟨text⟩)).1 :=
    before.start_congr (isAbsolute_join (isRelative_name name) base).symm
  have room : before.newLocation (before.start (base.join ⟨text⟩)).1
      (before.start (base.join ⟨text⟩)).2 = .ok location := by
    refine (newLocation_within grows name located).resolve_right fun closed => closed.2 ?_
    rw [← origin]
    exact (isDirectory_iff.mp opened).2.2
  have last : (before.start (base.join ⟨text⟩)).2.getLast? ≠ some ("" : RawText) := by
    rw [getLast?_start before name]
    simpa using name.down.1
  have isFile : after.entryAt? location = some (.file kept) := contentAt?_eq_some.mp found
  have free : before.entryAt? location ≠ some .directory := by
    intro isDirectory
    have still := grows.directories location isDirectory
    rw [isFile] at still
    cases still
  refine ⟨before.put location (.file content), ?_, grows.put_file free found⟩
  simp only [write?, admitted, nonempty, last, room, free, Bool.not_true, Bool.false_eq_true,
    or_self, if_false]

theorem copy?_within {source : Path} (opened : before.isDirectory base = true) (name : IsName text)
    (grows : before.Grows after) (there : (after.read? (base.join ⟨text⟩)).isSome = true)
    (readable : (before.read? source).isSome = true) :
    ∃ copied, before.copy? source (base.join ⟨text⟩) = some copied ∧ copied.Grows after := by
  obtain ⟨emptied, cleared, within⟩ := write?_within opened name grows there ByteArray.empty
  have grown := (wrote_write? cleared).grows
  obtain ⟨content, read⟩ := Option.isSome_iff_exists.mp readable
  obtain ⟨kept, reread⟩ := Option.isSome_iff_exists.mp (grown.read? readable)
  obtain ⟨copied, rewritten, within'⟩ :=
    write?_within (grown.isDirectory opened) name within there kept
  refine ⟨copied, ?_, within'⟩
  simp [copy?, read, cleared, reread, rewritten]

theorem isDirectory_of_read? (name : IsName text) (nonempty : base.text ≠ "")
    (there : (files.read? (base.join ⟨text⟩)).isSome = true) : files.isDirectory base = true := by
  obtain ⟨content, read⟩ := Option.isSome_iff_exists.mp there
  obtain ⟨located, _⟩ := read?_eq_some.mp read
  obtain ⟨admitted, _, led⟩ := locate_ok located
  have moved := follow_moves led
  have names : moves (files.start (base.join ⟨text⟩)).2 = base.moving ++ [text] :=
    (files.start_names _).1.trans (moving_join_name name)
  rw [names, follow_append] at moved
  obtain ⟨directory, reached, stepped⟩ := bind_ok.mp moved
  refine isDirectory_iff.mpr ⟨admits_shorter admitted (join_begins name base), nonempty, directory, ?_,
    directory_of_follow stepped⟩
  rwa [files.start_congr (isAbsolute_join (isRelative_name name) base).symm]

end AppBundle.FileSystem
