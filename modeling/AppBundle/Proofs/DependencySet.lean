import AppBundle.DependencySet
import AppBundle.Proofs.Traversal

namespace AppBundle.DependencySet

/-! What a dependency set holds. Looking an artifact up is the view through which insertion is
described: what is there already stays, and of several new artifacts with one identity the first
is found.
-/

variable {set : DependencySet} {artifact other : Artifact} {artifacts : List Artifact}
  {coordinate : Coordinate} {identity : Identity}

theorem find?_iff_mem :
    set.find? coordinate = some artifact ↔
      artifact ∈ set.artifacts ∧ artifact.identity = coordinate.identity :=
  find?_key_iff_mem Artifact.identity set.distinct

theorem contains_eq_isSome : set.contains coordinate = (set.find? coordinate).isSome := by
  rw [contains, find?, Bool.eq_iff_iff, List.any_eq_true, List.find?_isSome]

theorem mem_iff_find? :
    artifact ∈ set.artifacts ↔ set.find? artifact.coordinate = some artifact := by
  rw [find?_iff_mem]
  exact ⟨fun member => ⟨member, rfl⟩, And.left⟩

theorem insert_known (known : set.contains artifact.coordinate = true) :
    set.insert artifact = set := by
  unfold insert
  split
  · rfl
  · next absent => simp [known] at absent

theorem insert_artifacts (absent : set.contains artifact.coordinate = false) :
    (set.insert artifact).artifacts = insertArtifact artifact set.artifacts := by
  unfold insert
  split
  · next known => simp [absent] at known
  · rfl

theorem mem_insert :
    other ∈ (set.insert artifact).artifacts ↔
      other ∈ set.artifacts ∨ other = artifact ∧ set.contains artifact.coordinate = false := by
  cases known : set.contains artifact.coordinate with
  | true => simp [insert_known known]
  | false => simp [insert_artifacts known, or_comm]

theorem find?_congr {left right : Coordinate} (same : left.identity = right.identity) :
    set.find? left = set.find? right := by
  rw [find?, find?, same]

theorem find?_eq_none :
    set.find? coordinate = none ↔
      ∀ artifact ∈ set.artifacts, artifact.identity ≠ coordinate.identity := by
  simp [find?]

theorem contains_eq_false : set.contains coordinate = false ↔ set.find? coordinate = none := by
  rw [contains_eq_isSome, Option.isSome_eq_false_iff, Option.isNone_iff_eq_none]

theorem find?_insert :
    (set.insert artifact).find? coordinate =
      (set.find? coordinate).or
        (if artifact.identity = coordinate.identity then some artifact else none) := by
  cases found : set.find? coordinate with
  | some known =>
      obtain ⟨member, same⟩ := find?_iff_mem.mp found
      rw [Option.some_or, find?_iff_mem]
      exact ⟨mem_insert.mpr (.inl member), same⟩
  | none =>
      rw [Option.none_or]
      split
      · next same =>
          have absent : set.find? artifact.coordinate = none := (find?_congr same).trans found
          rw [find?_iff_mem, mem_insert]
          exact ⟨.inr ⟨rfl, contains_eq_false.mpr absent⟩, same⟩
      · next different =>
          rw [find?_eq_none]
          intro other member
          rcases mem_insert.mp member with old | ⟨rfl, _⟩
          · exact find?_eq_none.mp found other old
          · exact different

theorem find?_insertAll :
    (set.insertAll artifacts).find? coordinate =
      (set.find? coordinate).or
        (artifacts.find? fun artifact => artifact.identity = coordinate.identity) := by
  induction artifacts generalizing set with
  | nil => exact Option.or_none.symm
  | cons first rest ih =>
      rw [insertAll, List.foldl_cons, ← insertAll, ih, find?_insert, Option.or_assoc,
        List.find?_cons]
      by_cases same : first.identity = coordinate.identity <;> simp [same]

theorem of_mem_insertAll (member : artifact ∈ (set.insertAll artifacts).artifacts) :
    artifact ∈ set.artifacts ∨ artifact ∈ artifacts := by
  rw [mem_iff_find?, find?_insertAll, Option.or_eq_some_iff] at member
  rcases member with here | ⟨_, here⟩
  · exact .inl (mem_iff_find?.mpr here)
  · exact .inr (List.mem_of_find?_eq_some here)

theorem find?_insertAll_set {others : DependencySet} :
    (set.insertAll others.artifacts).find? coordinate =
      (set.find? coordinate).or (others.find? coordinate) :=
  find?_insertAll

theorem find?_empty : empty.find? coordinate = none :=
  rfl

theorem find?_ofList :
    (ofList artifacts).find? coordinate =
      artifacts.find? fun artifact => artifact.identity = coordinate.identity := by
  rw [ofList, find?_insertAll, find?_empty, Option.none_or]

theorem of_mem_ofList (member : artifact ∈ (ofList artifacts).artifacts) :
    artifact ∈ artifacts := by
  rw [mem_iff_find?, find?_ofList] at member
  exact List.mem_of_find?_eq_some member

/-- Nothing is dropped from artifacts whose identities differ. -/
theorem mem_ofList (distinct : artifacts.Pairwise (·.identity ≠ ·.identity)) :
    artifact ∈ (ofList artifacts).artifacts ↔ artifact ∈ artifacts := by
  rw [mem_iff_find?, find?_ofList]
  exact (find?_key_iff_mem Artifact.identity distinct).trans
    ⟨And.left, fun member => ⟨member, rfl⟩⟩

/-- An artifact of an identity is in the set. -/
def Holds (set : DependencySet) (identity : Identity) : Prop :=
  ∃ artifact ∈ set.artifacts, artifact.identity = identity

instance : Decidable (set.Holds identity) :=
  inferInstanceAs (Decidable (∃ artifact ∈ set.artifacts, artifact.identity = identity))

theorem holds_iff_find? :
    set.Holds coordinate.identity ↔ (set.find? coordinate).isSome = true := by
  rw [find?, List.find?_isSome]
  simp only [decide_eq_true_eq]
  exact Iff.rfl

theorem holds_insert :
    (set.insert artifact).Holds identity ↔ set.Holds identity ∨ artifact.identity = identity := by
  constructor
  · intro held
    obtain ⟨other, member, same⟩ := held
    rcases mem_insert.mp member with old | ⟨rfl, _⟩
    · exact .inl ⟨other, old, same⟩
    · exact .inr same
  · intro held
    rcases held with ⟨other, member, same⟩ | same
    · exact ⟨other, mem_insert.mpr (.inl member), same⟩
    · cases found : set.find? artifact.coordinate with
      | none =>
          exact ⟨artifact, mem_insert.mpr (.inr ⟨rfl, contains_eq_false.mpr found⟩), same⟩
      | some known =>
          obtain ⟨member, sameKnown⟩ := find?_iff_mem.mp found
          exact ⟨known, mem_insert.mpr (.inl member), sameKnown.trans same⟩

theorem holds_insertAll :
    (set.insertAll artifacts).Holds identity ↔
      set.Holds identity ∨ ∃ artifact ∈ artifacts, artifact.identity = identity := by
  induction artifacts generalizing set with
  | nil => simp [insertAll]
  | cons first rest ih =>
      rw [insertAll, List.foldl_cons, ← insertAll, ih, holds_insert, List.exists_mem_cons_iff,
        or_assoc]

theorem holds_ofList :
    (ofList artifacts).Holds identity ↔ ∃ artifact ∈ artifacts, artifact.identity = identity := by
  have nothing : ¬empty.Holds identity := fun ⟨_, member, _⟩ => absurd member List.not_mem_nil
  rw [ofList, holds_insertAll, or_iff_right nothing]

end AppBundle.DependencySet
