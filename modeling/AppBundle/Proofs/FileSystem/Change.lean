import AppBundle.Proofs.FileSystem.Location

namespace AppBundle.FileSystem

/-! What changes a file system. Making directories changes no file, and writing or copying changes
one. Nothing is ever taken away, so that a path that led somewhere keeps leading there.
-/

variable {files before middle after : FileSystem} {path source target : Path}
  {here location directory other : Location} {entry : Entry} {names : List RawText}
  {content : ByteArray}

/-- The content of the file at a location. -/
def contentAt? (files : FileSystem) (location : Location) : Option ByteArray :=
  match files.entryAt? location with
  | some (.file content) => some content
  | _ => none

theorem contentAt?_eq_some :
    files.contentAt? location = some content ↔ files.entryAt? location = some (.file content) := by
  unfold contentAt?
  split
  · next found => simp [found]
  · next different =>
      simp only [reduceCtorEq, false_iff]
      exact different content

theorem read?_eq_some :
    files.read? path = some content ↔
      files.locate path = .ok (files.destination path) ∧
        files.contentAt? (files.destination path) = some content := by
  unfold read? find?
  rw [contentAt?_eq_some]
  cases located : files.locate path with
  | error reason => simp
  | ok location =>
      rw [← destination_of_locate located]
      split
      · next found => simp_all
      · next different => simpa using different content

theorem readText?_of_read? {text : String} (read : files.read? path = some text.toUTF8) :
    files.readText? path = some text := by
  rw [readText?, read]
  exact dif_pos text.isValidUTF8

/-- Directories stay directories, and files stay files. -/
structure Grows (before after : FileSystem) : Prop where
  workingDirectory : after.workingDirectory = before.workingDirectory
  directories : ∀ location, before.entryAt? location = some .directory →
    after.entryAt? location = some .directory
  files : ∀ location, (before.contentAt? location).isSome = true →
    (after.contentAt? location).isSome = true

theorem Grows.refl (files : FileSystem) : files.Grows files :=
  ⟨rfl, fun _ => id, fun _ => id⟩

theorem Grows.trans (first : before.Grows middle) (second : middle.Grows after) :
    before.Grows after where
  workingDirectory := second.workingDirectory.trans first.workingDirectory
  directories location here := second.directories location (first.directories location here)
  files location here := second.files location (first.files location here)

theorem Grows.destination (grows : before.Grows after) (path : Path) :
    after.destination path = before.destination path :=
  destination_congr grows.workingDirectory path

theorem Grows.follow (grows : before.Grows after) (led : before.follow here names = .ok location) :
    after.follow here names = .ok location := by
  induction names generalizing here with
  | nil => exact led
  | cons name rest ih =>
      rw [FileSystem.follow] at led ⊢
      split at led
      · contradiction
      · contradiction
      · next isDirectory =>
          rw [grows.directories here isDirectory]
          dsimp only
          split
          · next stays =>
              rw [if_pos stays] at led
              exact ih led
          · next moves =>
              rw [if_neg moves] at led
              split
              · next up =>
                  rw [if_pos up] at led
                  exact ih led
              · next down =>
                  rw [if_neg down] at led
                  split at led
                  · contradiction
                  · next short =>
                      rw [if_neg short]
                      exact ih led

theorem Grows.start (grows : before.Grows after) (path : Path) :
    after.start path = before.start path := by
  rw [FileSystem.start, FileSystem.start, grows.workingDirectory]

theorem Grows.locate (grows : before.Grows after) (located : before.locate path = .ok location) :
    after.locate path = .ok location := by
  obtain ⟨admitted, nonempty, led⟩ := locate_ok located
  rw [FileSystem.locate, grows.start path]
  simp only [admitted, nonempty, Bool.not_true, Bool.false_eq_true, if_false]
  exact grows.follow led

/-- A file that was read is a file still, at the same place. -/
theorem Grows.read? (grows : before.Grows after) (there : (before.read? path).isSome = true) :
    (after.read? path).isSome = true := by
  obtain ⟨content, read⟩ := Option.isSome_iff_exists.mp there
  obtain ⟨located, found⟩ := read?_eq_some.mp read
  obtain ⟨kept, still⟩ := Option.isSome_iff_exists.mp
    (grows.files _ (Option.isSome_iff_exists.mpr ⟨content, found⟩))
  refine Option.isSome_iff_exists.mpr ⟨kept, read?_eq_some.mpr ⟨?_, ?_⟩⟩
  · rw [grows.destination]
    exact grows.locate located
  · rw [grows.destination]
    exact still

/-- A path whose file kept its content is read as before. -/
theorem Grows.read?_kept (grows : before.Grows after) (read : before.read? path = some content)
    (kept : after.contentAt? (before.destination path) = before.contentAt? (before.destination path)) :
    after.read? path = some content := by
  obtain ⟨located, found⟩ := read?_eq_some.mp read
  rw [read?_eq_some, grows.destination, kept]
  exact ⟨grows.locate located, found⟩

/-- Nothing but directories were made. -/
structure Expands (before after : FileSystem) : Prop where
  workingDirectory : after.workingDirectory = before.workingDirectory
  directories : ∀ location, before.entryAt? location = some .directory →
    after.entryAt? location = some .directory
  contents : ∀ location, after.contentAt? location = before.contentAt? location

theorem Expands.refl (files : FileSystem) : files.Expands files :=
  ⟨rfl, fun _ => id, fun _ => rfl⟩

theorem Expands.trans (first : before.Expands middle) (second : middle.Expands after) :
    before.Expands after where
  workingDirectory := second.workingDirectory.trans first.workingDirectory
  directories location here := second.directories location (first.directories location here)
  contents location := (second.contents location).trans (first.contents location)

theorem Expands.grows (expands : before.Expands after) : before.Grows after where
  workingDirectory := expands.workingDirectory
  directories := expands.directories
  files location here := by
    rw [expands.contents]
    exact here

/-- A new entry lies in a directory that is there, under a name that leads down. -/
theorem newLocation_ok (found : files.newLocation here names = .ok location) :
    ∃ directory name, names.getLast? = some name ∧
      files.follow here names.dropLast = .ok directory ∧
      files.entryAt? directory = some .directory ∧ name ≠ "." ∧ name ≠ ".." ∧
      name.size ≤ nameLimit ∧ location = directory ++ [name] := by
  unfold newLocation at found
  split at found
  · contradiction
  · next name last =>
      rw [bind_ok] at found
      obtain ⟨directory, led, found⟩ := found
      obtain ⟨reached, isDirectory⟩ := follow_into led
      by_cases stays : name = "." ∨ name = ".."
      · rw [if_pos stays] at found
        contradiction
      · rw [if_neg stays] at found
        by_cases long : name.size > nameLimit
        · simp only [long, if_true] at found
          contradiction
        · simp only [long, if_false] at found
          rw [not_or] at stays
          cases found
          exact ⟨directory, name, last, reached, isDirectory, stays.1, stays.2,
            Nat.not_lt.mp long, rfl⟩

theorem makeDirectory_ok (made : files.makeDirectory path = .ok after) :
    ∃ location, location ≠ [] ∧ files.entryAt? location = none ∧
      after = files.put location .directory := by
  unfold makeDirectory at made
  dsimp only at made
  split at made
  · contradiction
  · split at made
    · contradiction
    · obtain ⟨location, found, made⟩ := bind_ok.mp made
      obtain ⟨directory, name, _, _, _, _, _, _, rfl⟩ := newLocation_ok found
      split at made
      · contradiction
      · next free =>
          cases made
          exact ⟨directory ++ [name], by simp, by simpa using free, rfl⟩

theorem expands_makeDirectory (made : files.makeDirectory path = .ok after) :
    files.Expands after := by
  obtain ⟨location, below, free, rfl⟩ := makeDirectory_ok made
  refine ⟨rfl, fun other isDirectory => ?_, fun other => ?_⟩
  · rw [entryAt?_put below]
    split
    · rfl
    · exact isDirectory
  · rw [contentAt?, contentAt?, entryAt?_put below]
    by_cases same : other = location
    · rw [if_pos same, same, free]
    · rw [if_neg same]

theorem expands_makeNested {paths : List Path} : files.Expands (files.makeNested paths).1 := by
  induction paths generalizing files with
  | nil => exact .refl files
  | cons path outer ih =>
      rw [makeNested]
      split
      · exact .refl files
      · split
        · next made => exact expands_makeDirectory made
        · exact .refl files
        · exact .refl files
        · have around : files.Expands (files.makeNested outer).1 := ih
          split
          · next middle stopped => exact stopped ▸ around
          · next middle complete =>
              rw [complete] at around
              split
              · next made => exact around.trans (expands_makeDirectory made)
              · exact around
              · exact around

theorem expands_makeDirectories : files.Expands (files.makeDirectories path).1 :=
  expands_makeNested

/-- The file at a location has new content, and nothing else changed. -/
structure Puts (before : FileSystem) (location : Location) (content : ByteArray)
    (after : FileSystem) : Prop where
  workingDirectory : after.workingDirectory = before.workingDirectory
  free : before.entryAt? location ≠ some .directory
  entries : ∀ other, after.entryAt? other =
    if other = location then some (.file content) else before.entryAt? other

theorem Puts.contentAt? (puts : before.Puts location content after) (other : Location) :
    after.contentAt? other = if other = location then some content else before.contentAt? other := by
  rw [FileSystem.contentAt?, puts.entries]
  by_cases same : other = location
  · rw [if_pos same, if_pos same]
  · rw [if_neg same, if_neg same]
    rfl

theorem Puts.grows (puts : before.Puts location content after) : before.Grows after where
  workingDirectory := puts.workingDirectory
  directories other isDirectory := by
    rw [puts.entries]
    split
    · next same => exact absurd (same ▸ isDirectory) puts.free
    · exact isDirectory
  files other isFile := by
    rw [puts.contentAt?]
    split
    · rfl
    · exact isFile

/-- Of two contents in a row the second stands. -/
theorem Puts.again {first : ByteArray} (puts : before.Puts location first middle)
    (again : middle.Puts location content after) : before.Puts location content after where
  workingDirectory := again.workingDirectory.trans puts.workingDirectory
  free := puts.free
  entries other := by
    rw [again.entries, puts.entries]
    split
    · rfl
    · rfl

/-- The file that a path leads to was written, and nothing else. -/
structure Wrote (before : FileSystem) (path : Path) (content : ByteArray) (after : FileSystem) :
    Prop extends before.Puts (before.destination path) content after where
  located : after.locate path = .ok (before.destination path)

theorem Wrote.grows (wrote : before.Wrote path content after) : before.Grows after :=
  wrote.toPuts.grows

theorem Wrote.read? (wrote : before.Wrote path content after) : after.read? path = some content := by
  rw [read?_eq_some, wrote.grows.destination, wrote.toPuts.contentAt?, if_pos rfl]
  exact ⟨wrote.located, rfl⟩

theorem write?_ok (written : files.write? path content = some after) :
    ∃ location, files.Puts location content after ∧ after.locate path = .ok location := by
  unfold write? at written
  split at written
  · contradiction
  · next fit =>
      rw [not_or, Bool.not_eq_true, Bool.not_eq_false'] at fit
      dsimp only at written
      split at written
      · contradiction
      · next ended =>
          split at written
          · contradiction
          · next location found =>
              obtain ⟨directory, name, last, led, isDirectory, notStay, notUp, short, rfl⟩ :=
                newLocation_ok found
              split at written
              · contradiction
              · next free =>
                  cases written
                  have puts : files.Puts (directory ++ [name]) content
                      (files.put (directory ++ [name]) (.file content)) :=
                    ⟨rfl, free, fun other => entryAt?_put (by simp)⟩
                  have grows := puts.grows
                  have notEmpty : name ≠ "" := by
                    intro empty
                    exact ended (empty ▸ last)
                  -- the way to the directory is there as before
                  refine ⟨_, puts, locate_down fit.1 fit.2 ?_ ?_ (grows.directories _ isDirectory)
                    ⟨notEmpty, notStay, notUp⟩ short⟩
                  · rw [grows.start]
                    exact last
                  · rw [grows.start]
                    exact grows.follow led

theorem wrote_write? (written : files.write? path content = some after) :
    files.Wrote path content after := by
  obtain ⟨location, puts, arrives⟩ := write?_ok written
  have leads : location = files.destination path := by
    rw [← puts.grows.destination]
    exact destination_of_locate arrives
  exact ⟨leads ▸ puts, leads ▸ arrives⟩

/-- A copy has the content of its source, or none where the source is its target. -/
theorem wrote_copy? (copied : files.copy? source target = some after) :
    ∃ content, files.read? source = some content ∧
      files.Wrote target
        (if files.destination source = files.destination target then ByteArray.empty else content)
        after := by
  unfold copy? at copied
  obtain ⟨content, read, copied⟩ := Option.bind_eq_some_iff.mp copied
  obtain ⟨emptied, cleared, copied⟩ := Option.bind_eq_some_iff.mp copied
  obtain ⟨kept, reread, rewritten⟩ := Option.bind_eq_some_iff.mp copied
  have wrote := wrote_write? cleared
  have rewrote := wrote_write? rewritten
  have same : kept =
      if files.destination source = files.destination target then ByteArray.empty else content := by
    have before := (read?_eq_some.mp read).2
    have between := (read?_eq_some.mp reread).2
    rw [wrote.grows.destination, wrote.toPuts.contentAt?, before, ← apply_ite] at between
    exact (Option.some.inj between).symm
  have leads := wrote.grows.destination target
  refine ⟨content, read, ?_⟩
  rw [← same]
  exact ⟨wrote.toPuts.again (leads ▸ rewrote.toPuts), leads ▸ rewrote.located⟩

end AppBundle.FileSystem
