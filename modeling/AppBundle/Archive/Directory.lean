import AppBundle.Archive.CodePage
import AppBundle.Archive.EndRecord
import AppBundle.Archive.ExtraField

namespace AppBundle.Archive

/-!
The directory of a zip archive. It lists the entries, whose own headers stand before it. The last
end record whose whole directory makes sense decides; the headers in front of it are looked at only
when an entry is opened, and of several entries with one name only the last is.
-/

/-- The method of enciphered content, whose packing an extra field tells. -/
def cipherMethod : Nat := 99

/-- The entry of an archive that has some more bytes in front of it. -/
def Entry.shifted (entry : Entry) (shift : Nat) : Entry :=
  { entry with header := entry.header + shift }

/-- An entry of a directory, and where the next one stands. -/
def readEntry? (content : ByteArray) (position : Nat) : Option (Entry × Nat) := do
  guard ((← word? content position) = entrySignature)
  let flags ← half? content (position + 8)
  let method ← half? content (position + 10)
  let packedSize ← word? content (position + 20)
  let size ← word? content (position + 24)
  let nameSize ← half? content (position + 28)
  let extraSize ← half? content (position + 30)
  let commentSize ← half? content (position + 32)
  let header ← word? content (position + 42)
  let nameStart := position + entrySize
  let extraStart := nameStart + nameSize
  let commentStart := extraStart + extraSize
  let name ← bytes? content nameStart nameSize
  let extra ← bytes? content extraStart extraSize
  let comment ← bytes? content commentStart commentSize
  let isUtf8 := flags / 2048 % 2 == 1
  let listed : Entry :=
    { nameBytes := name
      name := decodeName isUtf8 name
      comment := decodeName isUtf8 comment
      encrypted := flags % 2 == 1
      method := method
      size := size
      packedSize := packedSize
      header := header
      enciphered := false }
  let entry ← listed.withFields? extra
  guard (entry.method ≠ cipherMethod ∨ entry.enciphered)
  return (entry, commentStart + commentSize)

/-- Reads some entries from a position on. Each one's own header stands before the directory. -/
def Place.readEntries? (place : Place) (content : ByteArray) : Nat → Nat → Option (List Entry)
  | 0, _ => some []
  | count + 1, position => do
      let (listed, next) ← readEntry? content position
      let entry := listed.shifted place.shift
      guard (entry.header < place.start)
      let rest ← place.readEntries? content count next
      return entry :: rest

/-- The entries that the end record at a position leads to. -/
def entriesAt? (content : ByteArray) (position : Nat) : Option (List Entry) := do
  let record ← EndRecord.read? content position
  let place ← record.directory? content
  place.readEntries? content place.count place.start

/-- The entries of the last end record before a position that leads to any. -/
def lastEntries? (content : ByteArray) : Nat → Option (List Entry)
  | 0 => none
  | position + 1 =>
      match entriesAt? content position with
      | some entries => some entries
      | none => lastEntries? content position

def knownMethods : List Nat := [0, 8, 9, 12, 14, 93, 95]

/-- Whether an entry's own header is where the directory says; what it tells does not matter. -/
def Entry.hasHeader (entry : Entry) (content : ByteArray) : Bool :=
  entry.header + localSize ≤ content.size && word? content entry.header == some localSignature

/-- An entry can be opened if its own header is there, it is not encrypted and its method is
known. -/
def Entry.isOpen (entry : Entry) (content : ByteArray) : Bool :=
  entry.hasHeader content && !entry.encrypted && !entry.enciphered &&
    knownMethods.contains entry.method

/-- Of several entries with one name the last one counts. -/
def lastOfEachName : List Entry → List Entry
  | [] => []
  | entry :: rest =>
      if rest.any (·.name == entry.name) then lastOfEachName rest
      else entry :: lastOfEachName rest

/-- The names of an archive's entries, if it is an archive and each of them can be opened. -/
def entryNames? (content : ByteArray) : Option (List String) := do
  let entries ← lastEntries? content content.size
  let distinct := lastOfEachName entries
  guard (distinct.all (·.isOpen content))
  return distinct.map (·.name)

def isDirectoryName (name : String) : Bool :=
  match name.toList.getLast? with
  | some last => last = '/' || last = '\\'
  | none => false

end AppBundle.Archive
