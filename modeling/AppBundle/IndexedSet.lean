import AppBundle.DependencySet

namespace AppBundle

/-!
Dependency sets as they are kept for insertion: the artifacts in the order of their keys, and beside
them an index of their coordinates. The index alone is asked whether a coordinate is there, and the
place of a new artifact is found by its rank among the keys.
-/

structure IndexedSet where
  artifacts : List Artifact
  /-- The coordinates of the artifacts, in no order of theirs. -/
  index : List Coordinate
deriving DecidableEq

namespace IndexedSet

def empty : IndexedSet :=
  ⟨[], []⟩

def contains (set : IndexedSet) (coordinate : Coordinate) : Bool :=
  set.index.any fun known => known.identity = coordinate.identity

def find? (set : IndexedSet) (coordinate : Coordinate) : Option Artifact :=
  if set.contains coordinate then
    set.artifacts.find? fun artifact => artifact.identity = coordinate.identity
  else none

/-- How many artifacts at the front have a smaller key. -/
def rank (set : IndexedSet) (key : String) : Nat :=
  (set.artifacts.takeWhile fun artifact => compare artifact.key key = .lt).length

/-- Adds an artifact unless its coordinate is there already, and tells whether it was added. -/
def insert (set : IndexedSet) (artifact : Artifact) : Bool × IndexedSet :=
  if set.contains artifact.coordinate then (false, set)
  else
    (true,
      { artifacts := set.artifacts.insertIdx (set.rank artifact.key) artifact
        index := artifact.coordinate :: set.index })

/-- Collects artifacts; of one identity the first stays. -/
def ofList (artifacts : List Artifact) : IndexedSet :=
  artifacts.foldl (fun set artifact => (set.insert artifact).2) empty

def map (change : Artifact → Artifact) (set : IndexedSet) : IndexedSet :=
  ofList (set.artifacts.map change)

def size (set : IndexedSet) : Nat :=
  set.artifacts.length

def isEmpty (set : IndexedSet) : Bool :=
  set.artifacts.isEmpty

/-- Whether two sets hold the same artifacts and know the same coordinates. -/
def same (left right : IndexedSet) : Bool :=
  left.size == right.size &&
    (left.artifacts.zip right.artifacts).all (fun (first, second) => first.Same second) &&
      left.index.length == right.index.length && left.index.all right.contains

end IndexedSet

end AppBundle
