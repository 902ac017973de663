import AppBundle.Failure
import AppBundle.Xml.Stream
import AppBundle.Xml.Writer

namespace AppBundle

/-!
Companion metadata. An installed artifact without a nested model is described by a small XML
document of five fields. A reader takes the fields from the inner elements of any element, whatever
else that holds and whatever follows it, and refuses a field that is given twice or holds elements of
its own.
-/

structure Pom where
  modelVersion : Option String
  group : Option String
  name : Option String
  version : Option String
  kind : Option String
deriving DecidableEq

namespace Pom

def currentVersion : String := "4.0.0"

def minimal (coordinate : Coordinate) : Pom :=
  ⟨some currentVersion, some coordinate.group, some coordinate.name, some coordinate.version,
    some coordinate.kind⟩

/-- Classifiers do not show, so the variants of one artifact share a file. -/
def fileName (coordinate : Coordinate) : String :=
  coordinate.name ++ "-" ++ coordinate.version ++ ".pom"

def fields (pom : Pom) : List (String × Option String) :=
  [("modelVersion", pom.modelVersion), ("groupId", pom.group), ("artifactId", pom.name),
    ("version", pom.version), ("packaging", pom.kind)]

def fieldNames : List String :=
  ["modelVersion", "groupId", "artifactId", "version", "packaging"]

/-- The fields in the order in which they are named, from values that may lack some. -/
def ofFields (values : List (String × Option String)) : Pom :=
  let value (name : String) := (values.lookup name).join
  ⟨value "modelVersion", value "groupId", value "artifactId", value "version", value "packaging"⟩

theorem ofFields_fields (pom : Pom) : ofFields pom.fields = pom := rfl

def toXml (pom : Pom) : String :=
  Xml.declaration ++
    String.ofList
      (Xml.wrapped "project"
          (pom.fields.flatMap fun (name, value) => Xml.textElement name value) ++
        ['\n'])

open Xml

/-- Reads a field behind its start tag. It has no value if it or the element around it is marked as
holding nothing. -/
def readField (outer tag : Tag) (stream : Stream) : Option (Option String × Stream) := do
  let scope ← stream.aheadScope?
  if scope.marksNil outer || scope.marksNil tag then
    return (none, ← stream.skip)
  else
    let (content, after) ← stream.elementText
    return (some content, after)

theorem readField_length {outer tag : Tag} {stream after : Stream} {value : Option String}
    (read : readField outer tag stream = some (value, after)) :
    after.rest.length ≤ stream.rest.length := by
  obtain ⟨scope, -, read⟩ := Option.bind_eq_some_iff.mp read
  split at read
  · obtain ⟨behind, skipped, same⟩ := Option.bind_eq_some_iff.mp read
    cases same
    exact Stream.skip_length skipped
  · obtain ⟨⟨content, behind⟩, isText, same⟩ := Option.bind_eq_some_iff.mp read
    cases same
    exact Stream.elementText_length isText

/-- Reads the fields inside an element up to its end tag, behind fields that were read before. -/
def readFields (outer : Tag) (known : List (String × Option String)) (stream : Stream) :
    Option (List (String × Option String)) :=
  match first : stream.next with
  | none => none
  | some (.finish, _) => none
  | some (.closing, _) => some known
  | some (.text _, after) =>
      have _ := Stream.nextOf_shorter first (by simp)
      readFields outer known after
  | some (.opening tag, inside) =>
      have shorter := Stream.nextOf_shorter first (by simp)
      if tag.localName ∈ fieldNames then
        if known.any (·.1 = tag.localName) then none
        else
          match read : readField outer tag inside with
          | none => none
          | some (value, after) =>
              have _ := Nat.lt_of_le_of_lt (readField_length read) shorter
              readFields outer ((tag.localName, value) :: known) after
      else
        match skipped : inside.skip with
        | none => none
        | some after =>
            have _ := Nat.lt_of_le_of_lt (Stream.skip_length skipped) shorter
            readFields outer known after
termination_by stream.rest.length

/-- Reads the first element of a document. -/
def ofStream? (stream : Stream) : Option Pom :=
  match stream.next with
  | some (.opening root, inside) =>
      if root.isProper then (readFields root [] inside).map ofFields else none
  | _ => none

def parse (text : String) : Except Failure Pom :=
  match ofStream? (.ofText text) with
  | some pom => .ok pom
  | none => .error .pom

end Pom

end AppBundle
