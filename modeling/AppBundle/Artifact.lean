import AppBundle.Failure
import AppBundle.NameSet

namespace AppBundle

/-!
Resolved artifacts: a coordinate, the place of its payload, whether it is shared with all modules,
and the namespaces and resources it exports.
-/

structure Artifact where
  coordinate : Coordinate
  location : Option String
  shared : Bool
  namespaces : NameSet
  resources : NameSet
deriving DecidableEq

namespace Artifact

/-- An artifact with nothing known but its place. Only domain references may have none. -/
def resolved (coordinate : Coordinate) (location : Option String) : Except Failure Artifact :=
  if location.isNone && !coordinate.isDomain then .error (.missingLocation coordinate)
  else .ok ⟨coordinate, location, false, .empty, .empty⟩

def identity (artifact : Artifact) : Identity :=
  artifact.coordinate.identity

/-- The text that descriptors sort artifacts by. -/
def key (artifact : Artifact) : String :=
  artifact.coordinate.text

def locationPath (artifact : Artifact) : Except Failure Path :=
  match artifact.location with
  | some location => .ok ⟨location⟩
  | none => .error (.missingLocation artifact.coordinate)

/-- Artifacts that end up in the bundle: the runtime brings provided ones along, and domain
references are resolved on deployment. -/
def isPackaged (artifact : Artifact) : Bool :=
  !artifact.coordinate.isProvided && !artifact.coordinate.isDomain

/-- Equal, where coordinates count by their identity. -/
def Same (left right : Artifact) : Prop :=
  left.coordinate.Same right.coordinate ∧ left.location = right.location ∧
    left.shared = right.shared ∧ left.namespaces = right.namespaces ∧
      left.resources = right.resources

instance (left right : Artifact) : Decidable (Same left right) := by
  unfold Same
  infer_instance

end Artifact

end AppBundle
