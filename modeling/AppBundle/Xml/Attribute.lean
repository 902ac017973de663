import AppBundle.Xml.Token

namespace AppBundle.Xml

/-!
Attributes of start tags. They are read one after the other; behind one that has no proper form the
next one is looked for.
-/

structure Attribute where
  name : String
  value : String
deriving DecidableEq

/-- Reads the value of an attribute behind `=`, which is nothing where it has no quotes, and gives
what follows it. -/
def readValue (chars : List Char) : Option (Option String × List Char) :=
  match chars.dropWhile isSpace with
  | [] => none
  | quote :: rest =>
      if quote = '"' ∨ quote = '\x27' then
        match rest.dropWhile (· ≠ quote) with
        | [] => none
        | _ :: after => some (some (String.ofList (rest.takeWhile (· ≠ quote))), after)
      else some (none, (quote :: rest).dropWhile fun char => !isSpace char)

/-- The attributes at the head of some characters, at most `count`, with nothing in the place of
each that has no proper form. Where they are to be `distinct`, neither has one whose name was seen
before. -/
def readAttributes (distinct : Bool) : Nat → List String → List Char → List (Option Attribute)
  | 0, _, _ => []
  | count + 1, seen, chars =>
      match chars.dropWhile isSpace with
      | [] => []
      | first :: rest =>
          let inName (char : Char) := char ≠ '=' && !isSpace char
          let name := String.ofList (first :: rest.takeWhile inName)
          match (rest.dropWhile inName).dropWhile isSpace with
          | [] => [none]
          | '=' :: value =>
              if distinct && seen.contains name then
                none :: readAttributes distinct count seen (value.dropWhile fun char => !isSpace char)
              else
                match readValue value with
                | none => [none]
                | some (text, after) =>
                    text.map (⟨name, ·⟩) :: readAttributes distinct count (name :: seen) after
          | other => none :: readAttributes distinct count seen other

namespace Tag

def attributeItems (distinct : Bool) (tag : Tag) : List (Option Attribute) :=
  readAttributes distinct tag.attributes.length [] tag.attributes

/-- Whether all attributes have a proper form, and no two have one name. -/
def isProper (tag : Tag) : Bool :=
  (tag.attributeItems true).all (·.isSome)

/-- The part of a name after its prefix. -/
def localPart (name : String) : String :=
  match Text.parts ':' name with
  | [] => name
  | [only] => only
  | _ :: rest => Text.joined ':' rest

def localName (tag : Tag) : String :=
  localPart tag.name

end Tag

/-- The prefix of an attribute's name. -/
def Attribute.lead? (item : Attribute) : Option String :=
  match Text.parts ':' item.name with
  | first :: _ :: _ => some first
  | _ => none

end AppBundle.Xml
