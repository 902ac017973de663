import AppBundle.Text.Blank
import AppBundle.Text.Raw

namespace AppBundle

/-!
File paths as raw texts with `/` between names. A path is compared and taken apart by its components:
repeated separators and inner `.` names carry no meaning, while `..` is a component of its own.
Joining works on the text, so a written path keeps the form it was given in.
-/

structure Path where
  text : RawText
deriving DecidableEq

namespace Path

/-- The byte between names. -/
abbrev slash : UInt8 := 0x2F

abbrev dot : UInt8 := 0x2E

/-- One step of a path. Only a leading `.` counts as a step. -/
inductive Component where
  | root
  | current
  | parent
  | name (text : RawText)
deriving DecidableEq

/-- Rank of the component kinds: the root first, names last. -/
def Component.rank : Component → Nat
  | root => 0
  | current => 1
  | parent => 2
  | name _ => 3

/-- Kinds in their rank, names by their bytes. -/
def Component.order : Component → Component → Ordering
  | name left, name right => compare left right
  | left, right => compare left.rank right.rank

def isAbsolute (path : Path) : Bool :=
  path.text.bytes.head? == some slash

def isRelative (path : Path) : Bool :=
  !path.isAbsolute

/-- Components of the pieces after the first; empty pieces and `.` vanish. -/
def componentOf? (piece : RawText) : Option Component :=
  if piece = "" ∨ piece = "." then none
  else if piece = ".." then some .parent
  else some (.name piece)

def components (path : Path) : List Component :=
  let pieces := path.text.parts slash
  let steps := pieces.filterMap componentOf?
  if path.isAbsolute then .root :: steps
  else if pieces.head? = some ("." : RawText) then .current :: steps
  else steps

/-- Paths with the same components are the same place for every reader of paths. -/
def SameComponents (left right : Path) : Prop :=
  left.components = right.components

instance (left right : Path) : Decidable (SameComponents left right) :=
  inferInstanceAs (Decidable (left.components = right.components))

/-- Component by component; a path comes before the paths that go on from it. -/
def order (left right : Path) : Ordering :=
  List.compareLex Component.order left.components right.components

/-- Appends a path. An absolute one replaces everything before it, and a separator is written
unless there is nothing before it or one is there already. -/
def join (base next : Path) : Path :=
  if next.isAbsolute then next
  else
    match base.text.bytes.getLast? with
    | none => next
    | some last => if last = slash then ⟨base.text ++ next.text⟩ else ⟨base.text ++ "/" ++ next.text⟩

/-- Drops what carries no meaning at the end: separators and `.` names, but not the root itself
nor a leading `.`. The text is given backwards. -/
def trimBackwards : List UInt8 → List UInt8
  | last :: before :: rest =>
      if last = slash ∨ last = dot ∧ before = slash then trimBackwards (before :: rest)
      else last :: before :: rest
  | bytes => bytes

/-- The text of a path without its last component, or nothing if there is none to drop. -/
def parent? (path : Path) : Option Path :=
  let bytes := trimBackwards path.text.bytes.reverse
  if bytes = [] ∨ bytes = [slash] then none
  else some ⟨⟨(trimBackwards (bytes.dropWhile (· ≠ slash))).reverse⟩⟩

def fileName? (path : Path) : Option RawText :=
  match path.components.getLast? with
  | some (.name text) => some text
  | _ => none

/-- What follows the last dot of the file name; a name whose only dot is its first character has
no extension. -/
def extension? (path : Path) : Option RawText := do
  let name ← path.fileName?
  let backwards := name.bytes.reverse
  match backwards.dropWhile (· ≠ dot) with
  | [] => none
  | [_] => none
  | _ => some ⟨(backwards.takeWhile (· ≠ dot)).reverse⟩

/-- Whether the last components of a path are those of another. -/
def endsWith (path suffix : Path) : Bool :=
  suffix.components.isSuffixOf path.components

def isText (path : Path) : Bool :=
  path.text.isText

/-- The path as a message shows it, repaired where it is no text. -/
def shown (path : Path) : String :=
  path.text.shown

def quoted (path : Path) : String :=
  path.text.quoted

end Path

end AppBundle
