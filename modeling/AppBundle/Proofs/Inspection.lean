import AppBundle.Contents
import AppBundle.Proofs.CoordinateText
import AppBundle.Proofs.FileSystem.Directories

namespace AppBundle

/-! What an inspection finds. A directory and an archive of its files have the same contents, in whatever
order the archive lists them: each code file below a directory of its own makes that a namespace, and
each other file is a resource unless it is one of the build tool's records.
-/

open AppBundle.Path

namespace FileSystem

variable {files : FileSystem} {root : Path} {names directory location : Location} {found : Entry}

/-- No place has two entries. -/
def Distinct (files : FileSystem) : Prop :=
  (files.entries.map Prod.fst).Nodup

instance : Decidable files.Distinct :=
  inferInstanceAs (Decidable (List.Nodup _))

/-- A file lies below the place of a path. -/
def HasFile (files : FileSystem) (root : Path) (names : Location) : Prop :=
  (files.contentAt? (files.destination root ++ names)).isSome = true

end FileSystem

variable {entry file text : String} {entries names directory : List String}

namespace Text

/-- The characters of a file's name stand behind those of the directories around it. -/
def lead (directory : List String) : List Char :=
  if directory = [] then [] else (joined '/' directory).toList ++ ['/']

end Text

namespace Contents

variable {contents : Contents} {left right : List String}

variable {files other : FileSystem} {root archive : Path} {content : ByteArray} {way : Location}

/-- A directory with a tree of files whose names have no backslash in them, and with no directory too
deep in it to be opened. -/
structure IsTree (files : FileSystem) (root : Path) : Prop where
  opened : files.isDirectory root = true
  distinct : files.Distinct
  named : ∀ way, files.HasFile root way →
    ∀ name ∈ way, IsName name ∧ UInt8.ofNat '\\'.toNat ∉ name.bytes
  within : ∀ way, way ≠ [] → files.entryAt? (files.destination root ++ way) = some .directory →
    FileSystem.admits (FileSystem.walked root way) = true

/-- The entries are the files of a tree by the names leading to them; entries for directories may
stand among them. -/
structure Lists (entries : List String) (files : FileSystem) (root : Path) : Prop where
  complete : ∀ way, files.HasFile root way → way.shown ∈ entries
  exact : ∀ entry ∈ entries, (∃ way, files.HasFile root way ∧ entry = way.shown) ∨
    ∃ directory, entry = directory ++ "/"

theorem IsTree.occupied (tree : IsTree files root) (has : files.HasFile root way) : way ≠ [] := by
  rintro rfl
  obtain ⟨content, found⟩ := Option.isSome_iff_exists.mp has
  rw [List.append_nil, FileSystem.contentAt?_eq_some,
    FileSystem.entryAt?_of_isDirectory tree.opened] at found
  cases found

end Contents

end AppBundle
