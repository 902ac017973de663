import AppBundle.IndexedSet
import AppBundle.Proofs.DependencyOrder

namespace AppBundle

/-! Indexed sets and the dependency sets that they stand for. An insertion asks the index and changes
the artifacts, so both have to stay in step; then the index answers for the artifacts, the rank of a
key is the place where a sorted insertion puts it, and what is found is what was inserted first.
-/

namespace IndexedSet

variable {indexed : IndexedSet} {set : DependencySet} {artifact : Artifact}
  {artifacts others : List Artifact} {coordinate : Coordinate} {key : String}

/-- The artifacts are those of a dependency set, and the index holds exactly their coordinates. -/
structure StandsFor (indexed : IndexedSet) (set : DependencySet) : Prop where
  artifacts : indexed.artifacts = set.artifacts
  index : indexed.index.Perm (set.artifacts.map (·.coordinate))

theorem standsFor_empty : StandsFor empty .empty :=
  ⟨rfl, .nil⟩

/-- The rank of a key parts sorted artifacts into those before the key and the others. -/
theorem rank_parts (ordered : indexed.artifacts.Pairwise Artifact.Precedes) (key : String) :
    (∀ artifact ∈ indexed.artifacts.take (indexed.rank key), compare artifact.key key = .lt) ∧
      ∀ artifact ∈ indexed.artifacts.drop (indexed.rank key), compare artifact.key key ≠ .lt := by
  unfold rank
  obtain ⟨artifacts, index⟩ := indexed
  dsimp only at ordered ⊢
  induction artifacts with
  | nil => simp
  | cons next rest ih =>
      obtain ⟨first, others⟩ := List.pairwise_cons.mp ordered
      rw [List.takeWhile_cons]
      by_cases before : compare next.key key = .lt
      · obtain ⟨front, behind⟩ := ih others
        simp only [before, decide_true, if_true, List.length_cons, List.take_succ_cons,
          List.drop_succ_cons]
        exact ⟨List.forall_mem_cons.mpr ⟨before, front⟩, behind⟩
      · simp only [before, decide_false, Bool.false_eq_true, if_false, List.length_nil,
          List.take_zero, List.drop_zero]
        refine ⟨fun _ member => absurd member List.not_mem_nil,
          List.forall_mem_cons.mpr ⟨before, fun artifact member smaller => before ?_⟩⟩
        rcases (first artifact member).lt_or_eq with less | tie
        · exact Std.TransCmp.lt_trans less smaller
        · rwa [tie]

theorem insertArtifact_eq_insertIdx (artifact : Artifact) (artifacts : List Artifact) :
    insertArtifact artifact artifacts =
      artifacts.insertIdx
        (artifacts.takeWhile fun other => compare other.key artifact.key = .lt).length artifact := by
  induction artifacts with
  | nil => rfl
  | cons next rest ih =>
      rw [insertArtifact, List.takeWhile_cons]
      by_cases before : compare next.key artifact.key = .lt
      · simp [before, ih]
      · simp [before]

theorem StandsFor.contains (stands : StandsFor indexed set) (coordinate : Coordinate) :
    indexed.contains coordinate = set.contains coordinate := by
  rw [IndexedSet.contains, stands.index.any_eq, List.any_map]
  rfl

theorem StandsFor.find? (stands : StandsFor indexed set) (coordinate : Coordinate) :
    indexed.find? coordinate = set.find? coordinate := by
  rw [IndexedSet.find?, stands.contains, stands.artifacts]
  split
  · rfl
  · next absent =>
      rw [Bool.not_eq_true, DependencySet.contains_eq_false] at absent
      exact absent.symm

theorem StandsFor.insert (stands : StandsFor indexed set) (artifact : Artifact) :
    (indexed.insert artifact).1 = !set.contains artifact.coordinate ∧
      StandsFor (indexed.insert artifact).2 (set.insert artifact) := by
  rw [IndexedSet.insert, stands.contains]
  cases known : set.contains artifact.coordinate with
  | true =>
      rw [DependencySet.insert_known known]
      exact ⟨rfl, stands⟩
  | false =>
      have placed : (set.insert artifact).artifacts =
          indexed.artifacts.insertIdx (indexed.rank artifact.key) artifact := by
        rw [DependencySet.insert_artifacts known, ← stands.artifacts, insertArtifact_eq_insertIdx,
          rank]
      refine ⟨rfl, placed.symm, ?_⟩
      have added : (set.insert artifact).artifacts.Perm (artifact :: set.artifacts) := by
        rw [placed, ← stands.artifacts]
        exact List.perm_insertIdx _ _ (List.takeWhile_sublist _).length_le
      exact (stands.index.cons artifact.coordinate).trans (added.map Artifact.coordinate).symm

theorem standsFor_ofList (artifacts : List Artifact) :
    StandsFor (ofList artifacts) (.ofList artifacts) := by
  have inserted (indexed : IndexedSet) (set : DependencySet) (stands : StandsFor indexed set) :
      StandsFor (artifacts.foldl (fun set artifact => (set.insert artifact).2) indexed)
        (set.insertAll artifacts) := by
    induction artifacts generalizing indexed set with
    | nil => exact stands
    | cons artifact rest ih => exact ih _ _ (stands.insert artifact).2
  exact inserted empty .empty standsFor_empty

/-- What a set is after some artifacts were inserted one after another. -/
structure Collects (artifacts : List Artifact) (set : IndexedSet) : Prop where
  distinct : set.artifacts.Pairwise (·.identity ≠ ·.identity)
  ordered : set.artifacts.Pairwise Artifact.Precedes
  /-- The rank that decides the place of an insertion parts the keys. -/
  ranked : ∀ key, (∀ artifact ∈ set.artifacts.take (set.rank key), compare artifact.key key = .lt) ∧
    ∀ artifact ∈ set.artifacts.drop (set.rank key), compare artifact.key key ≠ .lt
  index : set.index.Perm (set.artifacts.map (·.coordinate))
  contains : ∀ coordinate, set.contains coordinate = true ↔
    ∃ artifact, set.find? coordinate = some artifact
  first : ∀ coordinate, set.find? coordinate =
    artifacts.find? fun artifact => artifact.identity = coordinate.identity
  added : ∀ artifact, (set.insert artifact).1 = true ↔
    ∀ other ∈ artifacts, other.identity ≠ artifact.identity
  refused : ∀ artifact, (set.insert artifact).1 = false → (set.insert artifact).2 = set

theorem collects_ofList (artifacts : List Artifact) : Collects artifacts (ofList artifacts) := by
  have stands := standsFor_ofList artifacts
  have ordered : (ofList artifacts).artifacts.Pairwise Artifact.Precedes := by
    rw [stands.artifacts]
    exact (DependencySet.ofList artifacts).ordered
  refine ⟨?_, ordered, rank_parts ordered, ?_, fun coordinate => ?_, fun coordinate => ?_,
    fun artifact => ?_, fun artifact refused => ?_⟩
  · rw [stands.artifacts]
    exact (DependencySet.ofList artifacts).distinct
  · rw [stands.artifacts]
    exact stands.index
  · rw [stands.contains, stands.find?, DependencySet.contains_eq_isSome, Option.isSome_iff_exists]
  · rw [stands.find?, DependencySet.find?_ofList]
  · rw [(stands.insert artifact).1, Bool.not_eq_true', DependencySet.contains_eq_false,
      DependencySet.find?_ofList, List.find?_eq_none]
    simp only [decide_eq_true_eq]
    exact Iff.rfl
  · unfold IndexedSet.insert at refused ⊢
    split
    · rfl
    · next absent => simp [absent] at refused

/-- Inserting artifacts one after another keeps the first of each identity, in the order of their keys
and with an index that names them exactly; the dependency set of the artifacts is what it stands for.
Parsed artifacts of different identities lie strictly in order, whatever the order of insertion. -/
theorem ofList_firstWrite (artifacts : List Artifact) :
    Collects artifacts (ofList artifacts) ∧ StandsFor (ofList artifacts) (.ofList artifacts) ∧
      (artifacts.Pairwise (·.identity ≠ ·.identity) →
        (∀ artifact ∈ artifacts, artifact.coordinate.Parsed) →
          (ofList artifacts).artifacts.Pairwise
            (fun left right => compare left.key right.key = .lt) ∧
          ∀ others, artifacts.Perm others →
            (ofList others).artifacts = (ofList artifacts).artifacts ∧
              (ofList others).index.Perm (ofList artifacts).index ∧
                DependencySet.ofList others = DependencySet.ofList artifacts) := by
  have stands := standsFor_ofList artifacts
  refine ⟨collects_ofList artifacts, stands, fun distinct parsed => ⟨?_, fun others permuted => ?_⟩⟩
  · rw [stands.artifacts]
    exact DependencySet.ascending_of_parsed fun artifact member =>
      parsed artifact (DependencySet.of_mem_ofList member)
  · have other := standsFor_ofList others
    have same := DependencySet.ofList_of_perm distinct parsed permuted
    rw [same] at other
    exact ⟨other.artifacts.trans stands.artifacts.symm, other.index.trans stands.index.symm, same⟩

/-- Two versions and a classifier of one library, the keys of which differ late. -/
theorem ofList_firstWrite_variants :
    let artifact (version : String) (classifier : Option String) : Artifact :=
      ⟨⟨"g", "lib", version, "jar", classifier, none⟩, some "/lib.jar", false, .empty, .empty⟩
    let artifacts := [artifact "1.0" (some "tests"), artifact "1.1" none, artifact "1.0" none]
    artifacts.Pairwise (·.identity ≠ ·.identity) ∧
      (∀ artifact ∈ artifacts, artifact.coordinate.Parsed) ∧
        (ofList artifacts.reverse).artifacts = (ofList artifacts).artifacts ∧
          (ofList artifacts).artifacts =
            [artifact "1.0" none, artifact "1.0" (some "tests"), artifact "1.1" none] := by
  intro artifact artifacts
  have distinct : artifacts.Pairwise (·.identity ≠ ·.identity) := by decide
  have parsed : ∀ artifact ∈ artifacts, artifact.coordinate.Parsed := by
    intro given member
    simp only [artifacts, List.mem_cons, List.not_mem_nil, or_false] at member
    rcases member with rfl | rfl | rfl
    · exact ⟨"g:lib:1.0:jar:tests", _, rfl, rfl⟩
    · exact ⟨"g:lib:1.1", _, rfl, rfl⟩
    · exact ⟨"g:lib:1.0", _, rfl, rfl⟩
  have permuted := ((ofList_firstWrite artifacts).2.2 distinct parsed).2 artifacts.reverse
    (List.reverse_perm artifacts).symm
  exact ⟨distinct, parsed, permuted.1, by decide +kernel⟩

end IndexedSet

end AppBundle
