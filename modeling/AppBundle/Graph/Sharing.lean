import AppBundle.Graph.Basic

namespace AppBundle

/-!
Shared libraries. A declared library and everything it leads to is marked as visible to all
modules.
-/

/-- A library that is shared, named without its version. -/
structure SharedLibrary where
  group : String
  name : String
deriving DecidableEq

namespace Graph

/-- The direct dependency that a declaration names. -/
def sharedStart (graph : Graph) (library : SharedLibrary) : Except Failure Coordinate :=
  match graph.findDirect? library.group library.name with
  | some start => .ok start
  | none => .error (.missingSharedLibrary library.group library.name)

/-- The direct dependencies that declarations name, or the first declaration that names none. -/
def sharedStarts (graph : Graph) (libraries : List SharedLibrary) :
    Except Failure (List Coordinate) :=
  libraries.mapM graph.sharedStart

/-- Marks everything that can be reached from some coordinates. Marks do not change edges, so the
walks may go over the graph at hand. -/
def shareAll (graph : Graph) (starts : List Coordinate) : Graph :=
  (starts.flatMap graph.reachableFrom).foldl (fun shared reference => shared.setShared reference true)
    graph

/-- Marks the declared libraries with everything they lead to. -/
def propagateShared (graph : Graph) (libraries : List SharedLibrary) : Except Failure Graph :=
  (graph.sharedStarts libraries).map graph.shareAll

end Graph

end AppBundle
