import AppBundle.Artifact

namespace AppBundle

/-!
Sets of artifacts, one for each identity, in the order of their coordinates' texts. The first
artifact of an identity stays: a later one is not inserted.
-/

/-- `left` may stand before `right`. -/
def Artifact.Precedes (left right : Artifact) : Prop :=
  compare left.key right.key ≠ .gt

instance (left right : Artifact) : Decidable (Artifact.Precedes left right) :=
  inferInstanceAs (Decidable (_ ≠ _))

theorem Artifact.Precedes.trans {first second third : Artifact} (before : first.Precedes second)
    (after : second.Precedes third) : first.Precedes third := by
  simp only [Artifact.Precedes, ← Ordering.isLE_iff_ne_gt] at *
  exact Std.TransCmp.isLE_trans before after

/-- Puts an artifact before the first one that does not come earlier by its key. -/
def insertArtifact (artifact : Artifact) : List Artifact → List Artifact
  | [] => [artifact]
  | next :: rest =>
      if compare next.key artifact.key = .lt then next :: insertArtifact artifact rest
      else artifact :: next :: rest

@[simp]
theorem mem_insertArtifact {artifact other : Artifact} {artifacts : List Artifact} :
    other ∈ insertArtifact artifact artifacts ↔ other = artifact ∨ other ∈ artifacts := by
  induction artifacts with
  | nil => simp [insertArtifact]
  | cons next rest ih =>
      simp only [insertArtifact]
      split
      · simp only [List.mem_cons, ih]
        constructor
        · rintro (here | here | here) <;> simp [here]
        · rintro (here | here | here) <;> simp [here]
      · simp

theorem insertArtifact_distinct {artifact : Artifact} {artifacts : List Artifact}
    (distinct : artifacts.Pairwise (·.identity ≠ ·.identity))
    (fresh : ∀ other ∈ artifacts, other.identity ≠ artifact.identity) :
    (insertArtifact artifact artifacts).Pairwise (·.identity ≠ ·.identity) := by
  induction artifacts with
  | nil => simp [insertArtifact]
  | cons next rest ih =>
      obtain ⟨first, others⟩ := List.pairwise_cons.mp distinct
      simp only [insertArtifact]
      split
      · refine List.pairwise_cons.mpr ⟨fun other member => ?_, ih others fun other later =>
          fresh other (List.mem_cons_of_mem _ later)⟩
        rcases mem_insertArtifact.mp member with rfl | later
        · exact fresh next (List.mem_cons_self ..)
        · exact first other later
      · exact List.pairwise_cons.mpr
          ⟨fun other member same => fresh other member same.symm, distinct⟩

theorem insertArtifact_ordered {artifact : Artifact} {artifacts : List Artifact}
    (ordered : artifacts.Pairwise Artifact.Precedes) :
    (insertArtifact artifact artifacts).Pairwise Artifact.Precedes := by
  induction artifacts with
  | nil => simp [insertArtifact]
  | cons next rest ih =>
      obtain ⟨first, others⟩ := List.pairwise_cons.mp ordered
      simp only [insertArtifact]
      split
      · next before =>
          refine List.pairwise_cons.mpr ⟨fun other member => ?_, ih others⟩
          rcases mem_insertArtifact.mp member with rfl | later
          · simp [Artifact.Precedes, before]
          · exact first other later
      · next notBefore =>
          have front : artifact.Precedes next := fun after =>
            notBefore (Std.OrientedCmp.lt_of_gt after)
          refine List.pairwise_cons.mpr ⟨fun other member => ?_, ordered⟩
          rcases List.mem_cons.mp member with rfl | later
          · exact front
          · exact front.trans (first other later)

structure DependencySet where
  artifacts : List Artifact
  distinct : artifacts.Pairwise (·.identity ≠ ·.identity)
  ordered : artifacts.Pairwise Artifact.Precedes
deriving DecidableEq

namespace DependencySet

def empty : DependencySet :=
  ⟨[], .nil, .nil⟩

instance : Inhabited DependencySet := ⟨empty⟩

def find? (set : DependencySet) (coordinate : Coordinate) : Option Artifact :=
  set.artifacts.find? fun artifact => artifact.identity = coordinate.identity

def contains (set : DependencySet) (coordinate : Coordinate) : Bool :=
  set.artifacts.any fun artifact => artifact.identity = coordinate.identity

theorem fresh_of_not_contains {set : DependencySet} {coordinate : Coordinate}
    (absent : set.contains coordinate = false) :
    ∀ artifact ∈ set.artifacts, artifact.identity ≠ coordinate.identity := by
  simpa [contains] using absent

/-- Adds an artifact unless its identity is there already. -/
def insert (set : DependencySet) (artifact : Artifact) : DependencySet :=
  match known : set.contains artifact.coordinate with
  | true => set
  | false =>
      { artifacts := insertArtifact artifact set.artifacts
        distinct := insertArtifact_distinct set.distinct (fresh_of_not_contains known)
        ordered := insertArtifact_ordered set.ordered }

def insertAll (set : DependencySet) (artifacts : List Artifact) : DependencySet :=
  artifacts.foldl insert set

/-- Collects artifacts; of one identity the first stays. -/
def ofList (artifacts : List Artifact) : DependencySet :=
  empty.insertAll artifacts

def map (change : Artifact → Artifact) (set : DependencySet) : DependencySet :=
  ofList (set.artifacts.map change)

def size (set : DependencySet) : Nat :=
  set.artifacts.length

def isEmpty (set : DependencySet) : Bool :=
  set.artifacts.isEmpty

/-- Whether two sets hold the same artifacts, where coordinates count by their identity. -/
def same (left right : DependencySet) : Bool :=
  left.size == right.size &&
    (left.artifacts.zip right.artifacts).all fun (first, second) => first.Same second

end DependencySet

end AppBundle
