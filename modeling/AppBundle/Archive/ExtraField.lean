import AppBundle.Archive.Bytes
import AppBundle.Digest.Crc32

namespace AppBundle.Archive

/-!
Extra fields of directory entries. Each has a kind, a length and data; some kinds change what is
known of their entry, and data that contradicts its kind refuses the entry. Bytes that break off
inside a field end the reading, and what was read before them stays.
-/

/-- What is known of an entry without its content. -/
structure Entry where
  nameBytes : List UInt8
  name : String
  comment : String
  encrypted : Bool
  method : Nat
  size : Nat
  packedSize : Nat
  /-- Where the entry's own header stands. -/
  header : Nat
  /-- Whether a field says how the content is enciphered. -/
  enciphered : Bool

/-- An entry and the bytes of its fields that are still to be read. -/
structure FieldCursor where
  entry : Entry
  bytes : List UInt8

inductive FieldStop where
  /-- The bytes broke off. -/
  | cutShort (entry : Entry)
  | refused

abbrev FieldReader := StateT FieldCursor (Except FieldStop)

namespace FieldReader

def take (count : Nat) : FieldReader (List UInt8) := do
  let cursor ← get
  if count ≤ cursor.bytes.length then
    set { cursor with bytes := cursor.bytes.drop count }
    return cursor.bytes.take count
  else throw (.cutShort cursor.entry)

def number (size : Nat) : FieldReader Nat := do
  return numberOf (← take size)

def require (holds : Bool) : FieldReader Unit :=
  if holds then return () else throw .refused

def change (update : Entry → Entry) : FieldReader Unit :=
  modify fun cursor => { cursor with entry := update cursor.entry }

/-- Reads a wide number where one takes the place of another, and counts its bytes. -/
def wideInstead (length value : Nat) : FieldReader (Nat × Nat) := do
  if 24 ≤ length || value == wordMax then return (← number 8, 8) else return (value, 0)

/-- Numbers that do not fit into words. -/
def wideNumbers (length : Nat) : FieldReader Unit := do
  let (size, first) ← wideInstead length (← get).entry.size
  change ({ · with size := size })
  let (packedSize, second) ← wideInstead length (← get).entry.packedSize
  change ({ · with packedSize := packedSize })
  let (header, third) ← wideInstead length (← get).entry.header
  change ({ · with header := header })
  let used := first + second + third
  require (used ≤ length)
  let _ ← take (length - used)

/-- Three file times in one attribute. -/
def fileTimes (length : Nat) : FieldReader Unit := do
  require (length == 32)
  let _ ← take 4
  require ((← number 2) == 1)
  require ((← number 2) == 24)
  let _ ← take 24

/-- Up to three times in seconds; flags tell which, and only the first has to agree with them. -/
def times (length : Nat) : FieldReader Unit := do
  let flags ← number 1
  let count := (List.range 8).countP flags.testBit
  require (length == 5 || length == 1 + 4 * count)
  require (flags < 8)
  let _ ← take (if length == 5 then 4 else 4 * count)

/-- How the content is enciphered, and the method it was packed with before. -/
def cipher (length : Nat) : FieldReader Unit := do
  require (length == 7)
  let version ← number 2
  let vendor ← number 2
  let strength ← number 1
  let method ← number 2
  require (vendor == 0x4541)
  require (version == 1 || version == 2)
  require (1 ≤ strength && strength ≤ 3)
  change ({ · with method := method, enciphered := true })

/-- Text in UTF-8 that replaces other bytes, whose checksum it carries. -/
def unicodeText (length : Nat) (replaced : List UInt8) : FieldReader (List UInt8 × String) := do
  let _ ← take 1
  let checksum ← number 4
  require (5 ≤ length)
  let bytes ← take (length - 5)
  require (checksum == Digest.crc32 replaced)
  match String.fromUTF8? ⟨bytes.toArray⟩ with
  | some text => return (bytes, text)
  | none => throw .refused

def unicodeComment (length : Nat) : FieldReader Unit := do
  let (_, text) ← unicodeText length (← get).entry.comment.toUTF8.toList
  change ({ · with comment := text })

def unicodeName (length : Nat) : FieldReader Unit := do
  let (bytes, text) ← unicodeText length (← get).entry.nameBytes
  change ({ · with nameBytes := bytes, name := text })

def field : FieldReader Unit := do
  let kind ← number 2
  let length ← number 2
  if kind == 0x0001 then wideNumbers length
  else if kind == 0x000A then fileTimes length
  else if kind == 0x5455 then times length
  else if kind == 0x6375 then unicodeComment length
  else if kind == 0x7075 then unicodeName length
  else if kind == 0x9901 then cipher length
  else let _ ← take length

/-- Reads the fields to their end, at most `count`. -/
def fields : Nat → FieldReader Unit
  | 0 => return ()
  | count + 1 => do
      if (← get).bytes.isEmpty then return ()
      field
      fields count

end FieldReader

/-- The entry with what its extra fields say, unless one of them refuses it. -/
def Entry.withFields? (entry : Entry) (bytes : List UInt8) : Option Entry :=
  match (FieldReader.fields bytes.length).run ⟨entry, bytes⟩ with
  | .ok (_, cursor) => some cursor.entry
  | .error (.cutShort reached) => some reached
  | .error .refused => none

end AppBundle.Archive
