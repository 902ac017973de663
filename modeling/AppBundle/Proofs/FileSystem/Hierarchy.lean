import AppBundle.Proofs.FileSystem.Repetition

namespace AppBundle.FileSystem

/-! Files in directories. Where every entry lies in a directory, a path to a file ends with the name of
that file, so that the file can be written wherever it can be read.
-/

open AppBundle.Path

variable {files after : FileSystem} {path : Path} {content : ByteArray} {location : Location}
  {entry : Entry}

theorem exists_of_read? (read : files.read? path = some content) : files.exists path = true := by
  unfold read? at read
  rw [FileSystem.exists]
  split at read
  · next found => rw [found]; rfl
  · cases read

/-- Every entry lies in a directory. -/
def Hierarchical (files : FileSystem) : Prop :=
  ∀ location entry, files.entryAt? location = some entry →
    files.entryAt? location.dropLast = some .directory

theorem hierarchical_of_entries
    (inside : ∀ entry ∈ files.entries, files.entryAt? entry.1.dropLast = some .directory) :
    files.Hierarchical := by
  intro location entry found
  cases location with
  | nil => rfl
  | cons name rest =>
      obtain ⟨_, _, entries, _⟩ := List.lookup_eq_some_iff.mp found
      exact inside (name :: rest, entry) (by simp [entries])

/-- The last name of a path to a file names it, and what is in front of that leads to its directory. -/
theorem named_of_read? (tree : files.Hierarchical) (read : files.read? path = some content) :
    ∃ directory name, IsName name ∧ (files.start path).2.getLast? = some name ∧
      files.newLocation (files.start path).1 (files.start path).2 = .ok (directory ++ [name]) ∧
      files.destination path = directory ++ [name] := by
  obtain ⟨located, found⟩ := read?_eq_some.mp read
  obtain ⟨_, _, led⟩ := locate_ok located
  have isFile := contentAt?_eq_some.mp found
  have ends := (files.start_names path).2
  obtain ⟨name, last⟩ : ∃ name, (files.start path).2.getLast? = some name := by
    rw [ends]
    exact ⟨_, List.getLast?_eq_some_getLast (parts_ne_nil path.text)⟩
  obtain ⟨directory, reached, isDirectory, stepped⟩ := follow_dropLast last led
  have moves : ¬(name = "" ∨ name = ".") := by
    intro stays
    rw [directory_of_stay led last stays] at isFile
    cases isFile
  have down : name ≠ ".." := by
    rintro rfl
    have up : files.destination path = directory.dropLast := follow_ok stepped
    rw [up, tree directory _ isDirectory] at isFile
    cases isFile
  obtain ⟨short, whole⟩ := follow_name stepped moves down
  have clean : slash ∉ name.bytes :=
    RawText.separator_not_mem_parts (List.mem_of_getLast? (ends ▸ last))
  obtain ⟨occupied, notStay⟩ := not_or.mp moves
  refine ⟨directory, name, ⟨clean, occupied, notStay, down⟩, last, ?_, whole⟩
  rw [newLocation_eq last, reached]
  simp only [bind, Except.bind, notStay, down, or_self, Nat.not_lt.mpr short, if_false]

theorem moving_of_read? (tree : files.Hierarchical) (read : files.read? path = some content) :
    ∃ names text, IsName text ∧ path.moving = names ++ [text] := by
  obtain ⟨_, name, isName, last, _⟩ := named_of_read? tree read
  have down : ¬(name = "" ∨ name = ".") := not_or.mpr ⟨isName.down.1, isName.down.2.1⟩
  refine ⟨moves (files.start path).2.dropLast, name, isName, ?_⟩
  rw [moving, ← (files.start_names path).1, ← List.dropLast_append_getLast? name last, moves_append,
    List.dropLast_concat, moves_move down]
  rfl

theorem write?_of_read? (tree : files.Hierarchical) (read : files.read? path = some content)
    (other : ByteArray) : ∃ after, files.write? path other = some after := by
  obtain ⟨located, found⟩ := read?_eq_some.mp read
  obtain ⟨admitted, nonempty, _⟩ := locate_ok located
  obtain ⟨directory, name, isName, last, arrives, whole⟩ := named_of_read? tree read
  have isFile := contentAt?_eq_some.mp found
  rw [whole] at isFile
  refine ⟨_, write?_eq_some.mpr ⟨admitted, nonempty, ?_, _, arrives, ?_, rfl⟩⟩
  · rw [last]
    exact fun empty => isName.down.1 (Option.some.inj empty)
  · rw [isFile]
    exact fun same => by cases same

theorem Hierarchical.write? (tree : files.Hierarchical)
    (written : files.write? path content = some after) : after.Hierarchical := by
  have wrote := wrote_write? written
  obtain ⟨_, _, _, location, arrives, _, same⟩ := write?_eq_some.mp written
  obtain ⟨directory, name, _, _, isDirectory, _, _, _, rfl⟩ := newLocation_ok arrives
  intro other entry found
  by_cases here : other = directory ++ [name]
  · subst here
    rw [List.dropLast_concat]
    exact wrote.grows.directories directory isDirectory
  · rw [same, entryAt?_put (by simp), if_neg here] at found
    exact wrote.grows.directories _ (tree other entry found)

end AppBundle.FileSystem
