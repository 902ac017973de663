import AppBundle.DependencySet

namespace AppBundle

/-!
Class-loading models. A model lists what one deployable unit or module loads: its dependencies, the
namespaces and resources of its own output, and the dependencies declared in addition for modules.
An application is a root model and one nested model for each of some coordinates.
-/

/-- Dependencies for a module beyond those it states itself; the module is named without its
version. -/
structure Addition where
  group : String
  name : String
  dependencies : List Artifact
deriving DecidableEq

structure Model where
  formatVersion : String
  owner : Coordinate
  dependencies : DependencySet
  namespaces : NameSet
  resources : NameSet
  additions : List Addition
deriving DecidableEq

namespace Model

def currentFormat : String := "1.2.0"

def ofDependencies (owner : Coordinate) (dependencies : DependencySet) : Model :=
  ⟨currentFormat, owner, dependencies, .empty, .empty, []⟩

def empty (owner : Coordinate) : Model :=
  ofDependencies owner .empty

end Model

/-- Entries whose keys ascend strictly by identity. -/
abbrev AscendingEntries (entries : List (Coordinate × Model)) : Prop :=
  entries.Pairwise fun left right => left.1.order right.1 = .lt

/-- Puts an entry at its place; its key must not be there yet. -/
def insertEntry (key : Coordinate) (model : Model) :
    List (Coordinate × Model) → List (Coordinate × Model)
  | [] => [(key, model)]
  | next :: rest =>
      if key.order next.1 = .lt then (key, model) :: next :: rest
      else next :: insertEntry key model rest

@[simp]
theorem mem_insertEntry {key : Coordinate} {model : Model} {entry : Coordinate × Model}
    {entries : List (Coordinate × Model)} :
    entry ∈ insertEntry key model entries ↔ entry = (key, model) ∨ entry ∈ entries := by
  induction entries with
  | nil => simp [insertEntry]
  | cons next rest ih =>
      simp only [insertEntry]
      split
      · simp
      · simp only [List.mem_cons, ih]
        constructor
        · rintro (here | here | here) <;> simp [here]
        · rintro (here | here | here) <;> simp [here]

theorem insertEntry_ascending {key : Coordinate} {model : Model}
    {entries : List (Coordinate × Model)} (ascending : AscendingEntries entries)
    (fresh : ∀ entry ∈ entries, entry.1.identity ≠ key.identity) :
    AscendingEntries (insertEntry key model entries) := by
  induction entries with
  | nil => simp [insertEntry]
  | cons next rest ih =>
      obtain ⟨first, others⟩ := List.pairwise_cons.mp ascending
      simp only [insertEntry]
      split
      · next before =>
          refine List.pairwise_cons.mpr ⟨fun entry member => ?_, ascending⟩
          rcases List.mem_cons.mp member with rfl | later
          · exact before
          · exact Std.TransCmp.lt_trans before (first entry later)
      · next notBefore =>
          have distinct := fresh next (List.mem_cons_self ..)
          have after : next.1.order key = .lt := by
            unfold Coordinate.order at notBefore ⊢
            cases outcome : next.1.identity.order key.identity with
            | lt => rfl
            | eq => exact absurd (Std.LawfulEqCmp.eq_of_compare outcome) distinct
            | gt => exact absurd (Std.OrientedCmp.lt_of_gt outcome) notBefore
          refine List.pairwise_cons.mpr ⟨fun entry member => ?_,
            ih others fun entry later => fresh entry (List.mem_cons_of_mem _ later)⟩
          rcases mem_insertEntry.mp member with rfl | later
          · exact after
          · exact first entry later

structure Application where
  root : Model
  nested : List (Coordinate × Model)
  ascending : AscendingEntries nested
deriving DecidableEq

namespace Application

def ofRoot (root : Model) : Application :=
  ⟨root, [], .nil⟩

def nested? (application : Application) (coordinate : Coordinate) : Option Model :=
  (application.nested.find? fun entry => entry.1.identity = coordinate.identity).map (·.2)

def hasNested (application : Application) (coordinate : Coordinate) : Bool :=
  application.nested.any fun entry => entry.1.identity = coordinate.identity

theorem fresh_of_not_hasNested {application : Application} {coordinate : Coordinate}
    (absent : application.hasNested coordinate = false) :
    ∀ entry ∈ application.nested, entry.1.identity ≠ coordinate.identity := by
  simpa [hasNested] using absent

/-- Adds a nested model. Each key is written once. -/
def insertNested (application : Application) (key : Coordinate) (model : Model) :
    Except Failure Application :=
  match known : application.hasNested key with
  | true => .error (.duplicateDefinition key)
  | false =>
      .ok
        { root := application.root
          nested := insertEntry key model application.nested
          ascending := insertEntry_ascending application.ascending (fresh_of_not_hasNested known) }

def mapNested (change : Coordinate → Model → Model) (application : Application) : Application :=
  { root := application.root
    nested := application.nested.map fun entry => (entry.1, change entry.1 entry.2)
    ascending := by
      rw [AscendingEntries, List.pairwise_map]
      exact application.ascending }

/-- The first key with a group and a name. -/
def keyNamed? (application : Application) (group name : String) : Option Coordinate :=
  (application.nested.find? fun entry => entry.1.isNamed group name).map (·.1)

/-- Adds artifacts to the nested model of one key. -/
def insertInto (application : Application) (key : Coordinate) (artifacts : List Artifact) :
    Application :=
  application.mapNested fun other model =>
    if other.identity = key.identity then
      { model with dependencies := model.dependencies.insertAll artifacts }
    else model

/-- Everything the root or a nested model depends on. The root's artifact of an identity stands,
and else that of the first key. -/
def allArtifacts (application : Application) : DependencySet :=
  application.nested.foldl (fun all entry => all.insertAll entry.2.dependencies.artifacts)
    application.root.dependencies

end Application

end AppBundle
