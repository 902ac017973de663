import AppBundle.Application.Build
import AppBundle.Proofs.DependencySet

namespace AppBundle.Application

/-! Nested models. Entries with different keys go in one by one whatever their order, an application
is determined by its root and its entries, and its artifacts are those of the root together with
those of every nested model.
-/

variable {application result : Application} {key : Coordinate} {model : Model}
  {entry : Coordinate × Model} {entries : List (Coordinate × Model)} {failure : Failure}

theorem hasNested_iff :
    application.hasNested key = true ↔
      ∃ entry ∈ application.nested, entry.1.identity = key.identity := by
  simp [hasNested]

theorem insertNested_known (known : application.hasNested key = true) :
    application.insertNested key model = .error (.duplicateDefinition key) := by
  unfold insertNested
  split
  · rfl
  · next absent => simp [known] at absent

theorem insertNested_absent (model : Model) (absent : application.hasNested key = false) :
    ∃ result, application.insertNested key model = .ok result ∧ result.root = application.root ∧
      result.nested = insertEntry key model application.nested := by
  unfold insertNested
  split
  · next known => simp [absent] at known
  · exact ⟨_, rfl, rfl, rfl⟩

theorem insertNested_ok (inserted : application.insertNested key model = .ok result) :
    application.hasNested key = false ∧ result.root = application.root ∧
      result.nested = insertEntry key model application.nested := by
  cases known : application.hasNested key with
  | true =>
      rw [insertNested_known known] at inserted
      contradiction
  | false =>
      obtain ⟨other, same, root, nested⟩ := insertNested_absent model known
      rw [inserted] at same
      cases same
      exact ⟨rfl, root, nested⟩

theorem hasNested_insertNested (inserted : application.insertNested key model = .ok result)
    {other : Coordinate} :
    result.hasNested other = true ↔
      other.identity = key.identity ∨ application.hasNested other = true := by
  obtain ⟨_, _, nested⟩ := insertNested_ok inserted
  rw [hasNested_iff, hasNested_iff, nested]
  constructor
  · intro known
    obtain ⟨entry, member, same⟩ := known
    rcases mem_insertEntry.mp member with rfl | old
    · exact .inl same.symm
    · exact .inr ⟨entry, old, same⟩
  · intro known
    rcases known with same | ⟨entry, old, same⟩
    · exact ⟨(key, model), mem_insertEntry.mpr (.inl rfl), same.symm⟩
    · exact ⟨entry, mem_insertEntry.mpr (.inr old), same⟩

/-- Entries with new keys, no two of one identity, are all inserted. -/
theorem insertEntries_distinct
    (fresh : ∀ entry ∈ entries, application.hasNested entry.1 = false)
    (distinct : entries.Pairwise fun left right => left.1.identity ≠ right.1.identity) :
    ∃ result, application.insertEntries entries = .ok result ∧ result.root = application.root ∧
      ∀ entry, entry ∈ result.nested ↔ entry ∈ application.nested ∨ entry ∈ entries := by
  induction entries generalizing application with
  | nil => exact ⟨application, rfl, rfl, fun entry => by simp⟩
  | cons first rest ih =>
      obtain ⟨different, others⟩ := List.pairwise_cons.mp distinct
      obtain ⟨freshFirst, freshRest⟩ := List.forall_mem_cons.mp fresh
      obtain ⟨next, inserted, nextRoot, nextNested⟩ :=
        insertNested_absent first.2 freshFirst
      have freshNext : ∀ entry ∈ rest, next.hasNested entry.1 = false := by
        intro entry member
        cases known : next.hasNested entry.1 with
        | false => rfl
        | true =>
            rcases (hasNested_insertNested inserted).mp known with same | old
            · exact absurd same.symm (different entry member)
            · rw [freshRest entry member] at old
              contradiction
      obtain ⟨result, completed, root, nested⟩ := ih freshNext others
      refine ⟨result, ?_, root.trans nextRoot, fun entry => ?_⟩
      · rw [insertEntries, List.foldlM_cons, inserted]
        exact completed
      · rw [nested, nextNested, mem_insertEntry, List.mem_cons]
        tauto

theorem order_irrefl : ¬key.order key = .lt := by
  have same : key.order key = .eq := Std.ReflCmp.compare_self
  rw [same]
  decide

theorem nested_nodup : application.nested.Nodup := by
  refine application.ascending.imp ?_
  intro left right before same
  rw [same] at before
  exact order_irrefl before

/-- The order of nested models follows from their keys. -/
theorem nested_eq_of_mem_iff {left right : Application}
    (same : ∀ entry, entry ∈ left.nested ↔ entry ∈ right.nested) : left.nested = right.nested := by
  have permuted : left.nested.Perm right.nested :=
    (List.perm_ext_iff_of_nodup nested_nodup nested_nodup).mpr same
  refine List.Perm.eq_of_pairwise ?_ left.ascending right.ascending permuted
  intro first second _ _ before after
  exact absurd (Std.TransCmp.lt_trans before after) order_irrefl

theorem eq_of_parts {left right : Application} (root : left.root = right.root)
    (nested : left.nested = right.nested) : left = right := by
  cases left
  cases right
  cases root
  cases nested
  rfl

theorem eq_of_mem_iff {left right : Application} (root : left.root = right.root)
    (same : ∀ entry, entry ∈ left.nested ↔ entry ∈ right.nested) : left = right :=
  eq_of_parts root (nested_eq_of_mem_iff same)

theorem allArtifacts_holds {identity : Identity} :
    application.allArtifacts.Holds identity ↔
      application.root.dependencies.Holds identity ∨
        ∃ entry ∈ application.nested, entry.2.dependencies.Holds identity := by
  have folded (entries : List (Coordinate × Model)) (set : DependencySet) :
      (entries.foldl (fun all entry => all.insertAll entry.2.dependencies.artifacts) set).Holds
          identity ↔
        set.Holds identity ∨ ∃ entry ∈ entries, entry.2.dependencies.Holds identity := by
    induction entries generalizing set with
    | nil => simp
    | cons first rest ih =>
        rw [List.foldl_cons, ih, DependencySet.holds_insertAll, List.exists_mem_cons_iff, or_assoc]
        rfl
  exact folded application.nested application.root.dependencies

/-- No artifact is made up: each is listed by the root or by a nested model. -/
theorem of_mem_allArtifacts {artifact : Artifact}
    (member : artifact ∈ application.allArtifacts.artifacts) :
    artifact ∈ application.root.dependencies.artifacts ∨
      ∃ entry ∈ application.nested, artifact ∈ entry.2.dependencies.artifacts := by
  have folded (entries : List (Coordinate × Model)) (set : DependencySet)
      (member : artifact ∈ (entries.foldl (fun all entry =>
        all.insertAll entry.2.dependencies.artifacts) set).artifacts) :
      artifact ∈ set.artifacts ∨ ∃ entry ∈ entries, artifact ∈ entry.2.dependencies.artifacts := by
    induction entries generalizing set with
    | nil => exact .inl member
    | cons first rest ih =>
        rcases ih _ member with early | ⟨entry, later, inside⟩
        · rcases DependencySet.of_mem_insertAll early with old | new
          · exact .inl old
          · exact .inr ⟨first, List.mem_cons_self .., new⟩
        · exact .inr ⟨entry, List.mem_cons_of_mem _ later, inside⟩
  exact folded application.nested application.root.dependencies member

end AppBundle.Application
