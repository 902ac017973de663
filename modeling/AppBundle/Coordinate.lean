import AppBundle.Path

namespace AppBundle

/-!
Package coordinates. A coordinate names one artifact by group, name and version, with a type, an
optional classifier and an optional scope. Which artifact is meant depends on the first three and
the classifier alone: two coordinates with one `Identity` are interchangeable as keys, whatever
their type and scope.
-/

/-- The parts of a coordinate that decide which artifact it names. -/
structure Identity where
  group : String
  name : String
  version : String
  classifier : Option String
deriving DecidableEq, Hashable

/-- Group first, then name, version and classifier; no classifier comes before any. -/
def Identity.order : Identity → Identity → Ordering :=
  compareLex (compareOn group) <| compareLex (compareOn name) <|
    compareLex (compareOn version) (compareOn classifier)

instance : Std.TransCmp Identity.order :=
  inferInstanceAs <| Std.TransCmp <| compareLex (compareOn Identity.group) <|
    compareLex (compareOn Identity.name) <|
      compareLex (compareOn Identity.version) (compareOn Identity.classifier)

instance : Std.LawfulEqCmp Identity.order where
  eq_of_compare {left right} same := by
    simp only [Identity.order, compareLex, compareOn, Ordering.then_eq_eq,
      Std.LawfulEqCmp.compare_eq_iff_eq] at same
    obtain ⟨group, name, version, classifier⟩ := same
    cases left
    cases right
    simp_all

structure Coordinate where
  group : String
  name : String
  version : String
  /-- The packaging type, which is also the file extension. -/
  kind : String
  classifier : Option String
  scope : Option String
deriving DecidableEq

namespace Coordinate

/-- Type of a coordinate that states none. -/
def defaultKind : String := "jar"

/-- Classifier of a dependency that loads in a scope of its own. -/
def moduleClassifier : String := "mule-plugin"

/-- Classifier of a reference that is resolved when the application is deployed. -/
def domainClassifier : String := "mule-domain"

/-- Scope of artifacts that the runtime supplies. -/
def providedScope : String := "provided"

def identity (coordinate : Coordinate) : Identity :=
  ⟨coordinate.group, coordinate.name, coordinate.version, coordinate.classifier⟩

def Same (left right : Coordinate) : Prop :=
  left.identity = right.identity

instance (left right : Coordinate) : Decidable (Same left right) :=
  inferInstanceAs (Decidable (left.identity = right.identity))

def order (left right : Coordinate) : Ordering :=
  left.identity.order right.identity

instance : Std.TransCmp order where
  eq_swap := (inferInstance : Std.OrientedCmp Identity.order).eq_swap
  isLE_trans := (inferInstance : Std.TransCmp Identity.order).isLE_trans

def hashCode (coordinate : Coordinate) : UInt64 :=
  hash coordinate.identity

/-- Reads `group:name:version[:type[:classifier]]`. Blanks around the whole text are dropped, and
every part that is there must hold something. -/
def parse? (text : String) : Option Coordinate :=
  let parts := Text.parts ':' (Text.trim text)
  if parts.any (· = "") then none
  else
    match parts with
    | [group, name, version] => some ⟨group, name, version, defaultKind, none, none⟩
    | [group, name, version, kind] => some ⟨group, name, version, kind, none, none⟩
    | [group, name, version, kind, classifier] =>
        some ⟨group, name, version, kind, some classifier, none⟩
    | _ => none

/-- `group:name:version:type[:classifier]` -/
def text (coordinate : Coordinate) : String :=
  let base :=
    coordinate.group ++ ":" ++ coordinate.name ++ ":" ++ coordinate.version ++ ":" ++
      coordinate.kind
  match coordinate.classifier with
  | none => base
  | some classifier => base ++ ":" ++ classifier

def isModule (coordinate : Coordinate) : Bool :=
  coordinate.classifier == some moduleClassifier

def isDomain (coordinate : Coordinate) : Bool :=
  coordinate.classifier == some domainClassifier

def isProvided (coordinate : Coordinate) : Bool :=
  coordinate.scope == some providedScope

/-- Agreement on group and name, whatever the version. -/
def isNamed (coordinate : Coordinate) (group name : String) : Bool :=
  coordinate.group == group && coordinate.name == name

/-- The group with its dots read as directory separators. -/
def groupPath (coordinate : Coordinate) : String :=
  Text.replaceChar '.' '/' coordinate.group

/-- `name-version[-classifier].type` -/
def fileName (coordinate : Coordinate) : String :=
  let stem := coordinate.name ++ "-" ++ coordinate.version
  match coordinate.classifier with
  | none => stem ++ "." ++ coordinate.kind
  | some classifier => stem ++ "-" ++ classifier ++ "." ++ coordinate.kind

def directory (coordinate : Coordinate) : Path :=
  ((Path.mk coordinate.groupPath).join ⟨coordinate.name⟩).join ⟨coordinate.version⟩

def localPath (coordinate : Coordinate) : Path :=
  coordinate.directory.join ⟨coordinate.fileName⟩

/-- The payload's place as plain text, with exactly one separator between the parts. -/
def repositoryPath (coordinate : Coordinate) : String :=
  coordinate.groupPath ++ "/" ++ coordinate.name ++ "/" ++ coordinate.version ++ "/" ++
    coordinate.fileName

end Coordinate

end AppBundle
