import AppBundle.Text.Quoted
import AppBundle.Text.Utf8

namespace AppBundle

/-!
Text as the operating system keeps it, in paths, file names and command lines: bytes that most often
are the UTF-8 of a text, but need not be. Such bytes become text again either exactly, where they are
UTF-8, or repaired, with a replacement for each character that breaks off.
-/

structure RawText where
  bytes : List UInt8
deriving DecidableEq

namespace RawText

def ofText (text : String) : RawText :=
  ⟨text.toUTF8.data.toList⟩

instance : Coe String RawText := ⟨ofText⟩

instance : Append RawText := ⟨fun left right => ⟨left.bytes ++ right.bytes⟩⟩

/-- Byte by byte, which for UTF-8 is the order of the code points. -/
instance : Ord RawText := ⟨fun left right => compare left.bytes right.bytes⟩

def size (raw : RawText) : Nat :=
  raw.bytes.length

/-- The parts between the separators; a text without one is its only part. -/
def parts (separator : UInt8) (raw : RawText) : List RawText :=
  (raw.bytes.splitOn separator).map RawText.mk

/-- The text whose UTF-8 the bytes are. -/
def text? (raw : RawText) : Option String :=
  String.fromUTF8? raw.bytes.toByteArray

def isText (raw : RawText) : Bool :=
  raw.text?.isSome

/-- The repaired text, which is the text itself where there is one. -/
def shown (raw : RawText) : String :=
  raw.text?.getD (String.ofList (Text.repaired raw.bytes))

/-- The written form of a byte that belongs to no character. -/
def byteEscape (byte : UInt8) : List Char :=
  let digit (value : Nat) : Char := (Nat.digitChar value).toUpper
  ['\\', 'x', digit (byte.toNat / 16), digit (byte.toNat % 16)]

def quotedBytes : List UInt8 → List Char
  | [] => []
  | lead :: rest =>
      match Text.headChar? lead rest with
      | none => byteEscape lead ++ quotedBytes rest
      | some (char, count) => Text.quotedChar char ++ quotedBytes (rest.drop count)
termination_by bytes => bytes.length
decreasing_by all_goals (simp only [List.length_cons, List.length_drop]; omega)

/-- As `Text.quoted`, with the bytes that belong to no character by their hexadecimal values. -/
def quoted (raw : RawText) : String :=
  String.ofList ('"' :: (quotedBytes raw.bytes ++ ['"']))

end RawText

end AppBundle
