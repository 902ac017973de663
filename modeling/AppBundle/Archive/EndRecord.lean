import AppBundle.Archive.Bytes

namespace AppBundle.Archive

/-!
End records. The record at the end of an archive tells where its directory stands; if its numbers
are too small for that, a second, wide record in front of it does. Bytes in front of the archive
move everything by one shift, which shows where the record or entry that is looked for is found.
-/

def endSignature : Nat := 0x06054b50
def wideEndSignature : Nat := 0x06064b50
def locatorSignature : Nat := 0x07064b50
def entrySignature : Nat := 0x02014b50
def localSignature : Nat := 0x04034b50

/-- Sizes of the records without their texts. -/
def endSize : Nat := 22
def wideEndSize : Nat := 56
def locatorSize : Nat := 20
def entrySize : Nat := 46
def localSize : Nat := 30

structure EndRecord where
  position : Nat
  disk : Nat
  directoryDisk : Nat
  entriesHere : Nat
  entries : Nat
  directoryOffset : Nat

def EndRecord.read? (content : ByteArray) (position : Nat) : Option EndRecord := do
  guard ((← word? content position) = endSignature)
  let disk ← half? content (position + 4)
  let directoryDisk ← half? content (position + 6)
  let entriesHere ← half? content (position + 8)
  let entries ← half? content (position + 10)
  let directoryOffset ← word? content (position + 16)
  let comment ← half? content (position + 20)
  guard (position + endSize + comment ≤ content.size)
  return ⟨position, disk, directoryDisk, entriesHere, entries, directoryOffset⟩

/-- Tells where a wide end record stands. -/
structure Locator where
  position : Nat
  directoryDisk : Nat
  recordOffset : Nat
  disks : Nat

/-- The locator in front of an end record whose numbers are too small. -/
def EndRecord.locator? (record : EndRecord) (content : ByteArray) : Option Locator := do
  guard (record.entries = halfMax ∨ record.directoryOffset = wordMax)
  guard (locatorSize ≤ record.position)
  let position := record.position - locatorSize
  guard ((← word? content position) = locatorSignature)
  let directoryDisk ← word? content (position + 4)
  let recordOffset ← wide? content (position + 8)
  let disks ← word? content (position + 16)
  return ⟨position, directoryDisk, recordOffset, disks⟩

/-- Where a directory stands, and by how much the archive is shifted. -/
structure Place where
  start : Nat
  shift : Nat
  count : Nat

/-- The positions from `position` on, within some steps, where a word stands. -/
def seek (content : ByteArray) (signature : Nat) : Nat → Nat → List Nat
  | 0, _ => []
  | steps + 1, position =>
      if word? content position = some signature then
        position :: seek content signature steps (position + 1)
      else seek content signature steps (position + 1)

/-- The positions of a word between two positions. -/
def seekBetween (content : ByteArray) (signature start stop : Nat) : List Nat :=
  seek content signature (stop - start - 3) start

/-- The directory of an end record alone: the first entry at or behind the place it names. -/
def EndRecord.place? (record : EndRecord) (content : ByteArray) : Option Place := do
  let offset := record.directoryOffset
  let start ←
    if record.entries = 0 then some (max record.position offset)
    else if record.position ≤ offset then none
    else (seekBetween content entrySignature offset record.position).head?
  guard (record.disk = record.directoryDisk)
  return ⟨start, start - offset, record.entriesHere⟩

/-- A wide end record at a position. -/
structure WideRecord where
  position : Nat
  madeBy : Nat
  neededBy : Nat
  disk : Nat
  directoryDisk : Nat
  entriesHere : Nat
  entries : Nat
  directoryOffset : Nat

/-- A wide end record fills the space up to its locator, and agrees with it. -/
def Locator.record? (locator : Locator) (content : ByteArray) (position : Nat) :
    Option WideRecord := do
  let size ← wide? content (position + 4)
  let madeBy ← half? content (position + 12)
  let neededBy ← half? content (position + 14)
  let disk ← word? content (position + 16)
  let directoryDisk ← word? content (position + 20)
  let entriesHere ← wide? content (position + 24)
  let entries ← wide? content (position + 32)
  let directoryOffset ← wide? content (position + 48)
  guard (wideEndSize ≤ size + 12 ∧ position + size + 12 = locator.position)
  guard (directoryDisk = locator.directoryDisk)
  guard (entries * entrySize + directoryOffset ≤ position)
  return ⟨position, madeBy, neededBy, disk, directoryDisk, entriesHere, entries, directoryOffset⟩

/-- The directory that a locator leads to: the first wide end record at or behind the place that it
names decides. -/
def Locator.place? (locator : Locator) (content : ByteArray) : Option Place := do
  guard (locator.recordOffset < locator.position ∧ locator.disks ≤ 1)
  let record ←
    (seekBetween content wideEndSignature locator.recordOffset locator.position).findSome?
      (locator.record? content)
  guard (record.entriesHere ≤ record.entries ∧ record.neededBy ≤ record.madeBy)
  guard (record.disk = record.directoryDisk)
  let shift := record.position - locator.recordOffset
  return ⟨record.directoryOffset + shift, shift, record.entries⟩

def EndRecord.directory? (record : EndRecord) (content : ByteArray) : Option Place :=
  match record.locator? content with
  | none => record.place? content
  | some locator => locator.place? content

end AppBundle.Archive
