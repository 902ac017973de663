import AppBundle.Json.Document
import AppBundle.Text.Quoted

namespace AppBundle.Json

/-!
Reading values out of documents. A reader goes through a document in the order of its text and
stops at the first objection: either the text is no JSON at that point, or a value has the wrong
shape there.
-/

/-- What stands where something else was expected. -/
inductive Found where
  | null
  | boolean (value : Bool)
  | integer (value : Int)
  /-- A number with its shortest decimal text. -/
  | real (digits : String)
  | text (value : String)
  | sequence
  | map
deriving DecidableEq

def Found.message : Found → String
  | .null => "null"
  | .boolean value => "boolean `" ++ (if value then "true" else "false") ++ "`"
  | .integer value => "integer `" ++ toString value ++ "`"
  | .real digits => "floating point `" ++ digits ++ "`"
  | .text value => "string " ++ Text.quoted value
  | .sequence => "sequence"
  | .map => "map"

/-- A well-formed value of the wrong shape. -/
inductive Mistake where
  | wrongType (found : Found) (expected : String)
  | wrongValue (found : Found) (expected : String)
  | wrongLength (count : Nat) (expected : String)
  | missingField (name : String)
  | repeatedField (name : String)
  | unknownVariant (name : String) (known : List String)
  /-- The value has the right shape, but what it says cannot be. -/
  | refused (reason : String)
deriving DecidableEq

/-- The names a value may have, as a message lists them. -/
def alternatives : List String → String
  | [] => "there are no variants"
  | [only] => "expected `" ++ only ++ "`"
  | [first, second] => "expected `" ++ first ++ "` or `" ++ second ++ "`"
  | names => "expected one of " ++ String.intercalate ", " (names.map fun name => "`" ++ name ++ "`")

def Mistake.message : Mistake → String
  | wrongType found expected => "invalid type: " ++ found.message ++ ", expected " ++ expected
  | wrongValue found expected => "invalid value: " ++ found.message ++ ", expected " ++ expected
  | wrongLength count expected =>
      "invalid length " ++ toString count ++ ", expected " ++ expected
  | missingField name => "missing field `" ++ name ++ "`"
  | repeatedField name => "duplicate field `" ++ name ++ "`"
  | unknownVariant name known => "unknown variant `" ++ name ++ "`, " ++ alternatives known
  | refused reason => reason

inductive ReadError where
  | malformed
  | mistaken (mistake : Mistake)
deriving DecidableEq

def ReadError.message : ReadError → String
  | malformed => "invalid JSON"
  | mistaken mistake => mistake.message

abbrev Reader (α : Type) := Document → Except ReadError α

/-- The number a numeral stands for, as a message shows it; one that is too large is refused as
malformed. -/
def Numeral.found? (numeral : Numeral) : Option Found :=
  match numeral.value with
  | .natural value => some (.integer value)
  | .negative magnitude => some (.integer (-magnitude))
  | .real value => some (.real (Decimal.textOf value))
  | .tooLarge => none

/-- The objection to a value that is not what was expected. -/
def unexpected (expected : String) (document : Document) : ReadError :=
  let mistake (found : Found) : ReadError := .mistaken (.wrongType found expected)
  match document with
  | .null => mistake .null
  | .boolean value => mistake (.boolean value)
  | .number numeral =>
      match numeral.found? with
      | some found => mistake found
      | none => .malformed
  | .text value => mistake (.text value)
  | .unreadable => .malformed
  | .array _ _ => mistake .sequence
  | .object _ _ => mistake .map
  | .broken => .malformed

def readText (expected : String) : Reader String
  | .text value => .ok value
  | document => .error (unexpected expected document)

/-- Reads a text where any text will do. -/
def readString : Reader String := readText "a string"

def readBoolean : Reader Bool
  | .boolean value => .ok value
  | document => .error (unexpected "a boolean" document)

/-- Reads a number of things. -/
def readCount : Reader Nat
  | .number numeral =>
      match numeral.value with
      | .natural value => .ok value
      | .negative magnitude =>
          .error (.mistaken (.wrongValue (.integer (-magnitude)) "usize"))
      | _ => .error (unexpected "usize" (.number numeral))
  | document => .error (unexpected "usize" document)

def readOptional {α : Type} (reader : Reader α) : Reader (Option α)
  | .null => .ok none
  | document => (reader document).map some

def readList {α : Type} (reader : Reader α) : Reader (List α)
  | .array items closed => do
      let values ← items.mapM reader
      if closed then return values else throw .malformed
  | document => .error (unexpected "a sequence" document)

/-- The value of an enumeration: one of a few names, or an object with such a name as its only key
and null as its value. -/
def readVariant {α : Type} (variants : List (String × α)) : Reader α := fun document => do
  let choose (name : String) : Except ReadError α :=
    match variants.lookup name with
    | some value => .ok value
    | none => .error (.mistaken (.unknownVariant name (variants.map (·.1))))
  match document with
  | .text name => choose name
  | .object ((some name, value) :: rest) closed =>
      let chosen ← choose name
      match value with
      | .null => if rest.isEmpty && closed then return chosen else throw .malformed
      | other => throw (unexpected "unit" other)
  | _ => throw .malformed

/-- How the fields of a record are read into a draft and the draft into the record. -/
structure RecordReader (δ α : Type) where
  name : String
  /-- The known fields in their order of declaration. -/
  fields : List String
  empty : δ
  read : δ → String → Document → Except ReadError δ
  /-- Completes a draft; the function tells what to object where a field is missing. -/
  finish : (String → ReadError) → δ → Except ReadError α

namespace RecordReader

variable {δ α : Type}

/-- Reads the members of an object. A known field may appear once; unknown ones are passed over. -/
def readMembers (record : RecordReader δ α) :
    List String → δ → List (Option String × Document) → Except ReadError δ
  | _, draft, [] => .ok draft
  | _, _, (none, _) :: _ => .error .malformed
  | seen, draft, (some key, value) :: rest =>
      if key ∈ record.fields then
        if key ∈ seen then .error (.mistaken (.repeatedField key))
        else
          match record.read draft key value with
          | .error objection => .error objection
          | .ok draft => record.readMembers (key :: seen) draft rest
      else if value.isComplete then record.readMembers seen draft rest
      else .error .malformed

/-- Reads the items of an array into the fields in their order. -/
def readItems (record : RecordReader δ α) :
    δ → List String → List Document → Except ReadError δ
  | draft, field :: fields, item :: items =>
      match record.read draft field item with
      | .error objection => .error objection
      | .ok draft => record.readItems draft fields items
  | draft, _, _ => .ok draft

def description (record : RecordReader δ α) : String :=
  "struct " ++ record.name

/-- What an array that is too short for a record was expected to be. -/
def lengthDescription (record : RecordReader δ α) : String :=
  record.description ++ " with " ++ toString record.fields.length ++ " elements"

/-- Reads a record from an object, or from an array of its fields in order. -/
def reader (record : RecordReader δ α) : Reader α
  | .object members closed =>
      match record.readMembers [] record.empty members with
      | .error objection => .error objection
      | .ok draft =>
          if closed then
            record.finish (fun field => .mistaken (.missingField field)) draft
          else .error .malformed
  | .array items closed =>
      match record.readItems record.empty record.fields items with
      | .error objection => .error objection
      | .ok draft =>
          if closed && items.length ≤ record.fields.length then
            record.finish
              (fun field =>
                .mistaken (.wrongLength (record.fields.idxOf field) record.lengthDescription))
              draft
          else .error .malformed
  | document => .error (unexpected record.description document)

end RecordReader

def required {α : Type} (missing : String → ReadError) (field : String) :
    Option α → Except ReadError α
  | some value => .ok value
  | none => .error (missing field)

/-- Reads a whole text; nothing but white space may follow the value. -/
def readScalars {α : Type} (reader : Reader α) (input : List (Option Char)) :
    Except ReadError α := do
  let (document, rest) := Document.ofTokens (tokens input)
  let value ← reader document
  if rest.isEmpty then return value else throw .malformed

def readFromText {α : Type} (reader : Reader α) (text : String) : Except ReadError α :=
  readScalars reader (Text.scalars text)

/-- Whether a whole text has the form of JSON, whatever its strings and numbers stand for. -/
def isSoundText (text : String) : Bool :=
  let (document, rest) := Document.ofTokens (tokens (Text.scalars text))
  document.isComplete && rest.isEmpty

/-- Reads a text whose form is judged as a whole: a mistake counts only where the text has the form
of JSON from end to end. -/
def readFromSoundText {α : Type} (reader : Reader α) (text : String) : Except ReadError α :=
  match readFromText reader text with
  | .error (.mistaken mistake) =>
      .error (if isSoundText text then .mistaken mistake else .malformed)
  | result => result

def readFromContent {α : Type} (reader : Reader α) (content : ByteArray) : Except ReadError α :=
  readScalars reader (Text.contentScalars content)

end AppBundle.Json
