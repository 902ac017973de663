import Mathlib.Data.List.Perm.Basic
import AppBundle.Proofs.Application.Merge

namespace AppBundle.Application

/-! Nested models in any order. A run of insertions succeeds where all keys are new and no two are of
one identity, and the application that it ends in is told by its members; neither depends on the
order. Merging without inlining is such a run: owners are looked up in a root that stays as it was,
so that all entries are known before the first of them is inserted.
-/

variable {application next result : Application} {model : Model} {models others : List Model}
  {entry : Coordinate × Model} {entries reordered : List (Coordinate × Model)}

theorem insertEntries_cons :
    application.insertEntries (entry :: entries) = .ok result ↔
      ∃ next, application.insertNested entry.1 entry.2 = .ok next ∧
        next.insertEntries entries = .ok result := by
  rw [insertEntries, List.foldlM_cons]
  exact bind_ok

theorem fresh_of_insertEntries (inserted : application.insertEntries entries = .ok result) :
    (∀ entry ∈ entries, application.hasNested entry.1 = false) ∧
      entries.Pairwise fun left right => left.1.identity ≠ right.1.identity := by
  induction entries generalizing application with
  | nil => exact ⟨by simp, .nil⟩
  | cons entry rest ih =>
      obtain ⟨next, here, later⟩ := insertEntries_cons.mp inserted
      obtain ⟨absent, _, _⟩ := insertNested_ok here
      obtain ⟨freshNext, distinct⟩ := ih later
      -- what is new behind the first entry is new before it, and has another key
      have parted : ∀ other ∈ rest, other.1.identity ≠ entry.1.identity ∧
          application.hasNested other.1 = false := by
        intro other member
        have unknown := freshNext other member
        rw [← Bool.not_eq_true, hasNested_insertNested here, not_or, Bool.not_eq_true] at unknown
        exact unknown
      refine ⟨List.forall_mem_cons.mpr ⟨absent, fun other member => (parted other member).2⟩,
        List.pairwise_cons.mpr ⟨fun other member => ?_, distinct⟩⟩
      exact (parted other member).1.symm

/-- What a run of insertions does, and when it does; the entries are only asked for their members. -/
theorem insertEntries_ok :
    application.insertEntries entries = .ok result ↔
      (∀ entry ∈ entries, application.hasNested entry.1 = false) ∧
        (entries.Pairwise fun left right => left.1.identity ≠ right.1.identity) ∧
          result.root = application.root ∧
            ∀ entry, entry ∈ result.nested ↔ entry ∈ application.nested ∨ entry ∈ entries := by
  constructor
  · intro inserted
    obtain ⟨fresh, distinct⟩ := fresh_of_insertEntries inserted
    obtain ⟨other, same, root, nested⟩ := insertEntries_distinct fresh distinct
    rw [inserted] at same
    cases same
    exact ⟨fresh, distinct, root, nested⟩
  · intro described
    obtain ⟨fresh, distinct, root, nested⟩ := described
    obtain ⟨other, inserted, otherRoot, otherNested⟩ := insertEntries_distinct fresh distinct
    have same : other = result :=
      eq_of_mem_iff (otherRoot.trans root.symm) fun entry =>
        (otherNested entry).trans (nested entry).symm
    rw [inserted, same]

theorem insertEntries_perm (permuted : entries.Perm reordered)
    (inserted : application.insertEntries entries = .ok result) :
    application.insertEntries reordered = .ok result := by
  obtain ⟨fresh, distinct, root, nested⟩ := insertEntries_ok.mp inserted
  refine insertEntries_ok.mpr ⟨fun entry member => ?_, ?_, root, fun entry => ?_⟩
  · exact fresh entry (permuted.mem_iff.mpr member)
  · exact permuted.pairwise distinct fun different => different.symm
  · rw [nested, permuted.mem_iff]

/-- Every application is reached from its root by insertions. -/
theorem insertEntries_nested :
    (ofRoot application.root).insertEntries application.nested = .ok application := by
  refine insertEntries_ok.mpr ⟨fun _ _ => rfl, ?_, rfl, fun entry => ?_⟩
  · refine application.ascending.imp ?_
    intro left right before same
    unfold Coordinate.order at before
    rw [same] at before
    exact order_irrefl before
  · exact (or_iff_right List.not_mem_nil).symm

/-- The entry that a merge adds: the model, under the coordinate by which the root depends on its
owner. -/
def mergedEntry (application : Application) (model : Model) :
    Except Failure (Coordinate × Model) :=
  match application.root.dependencies.find? model.owner with
  | none => .error (.missingCoordinate (.mergeTarget model.owner))
  | some target => .ok (target.coordinate, model)

theorem mergedEntry_ok :
    application.mergedEntry model = .ok entry ↔
      ∃ target, application.root.dependencies.find? model.owner = some target ∧
        entry = (target.coordinate, model) := by
  unfold mergedEntry
  cases application.root.dependencies.find? model.owner with
  | none => simp
  | some target => simp [eq_comm]

theorem merge_legacy_ok :
    merge .legacy application model = .ok next ↔
      ∃ entry, application.mergedEntry model = .ok entry ∧
        application.insertNested entry.1 entry.2 = .ok next := by
  have same : merge .legacy application model =
      application.mergedEntry model >>= fun entry =>
        application.insertNested entry.1 entry.2 := by
    unfold merge mergedEntry
    cases application.root.dependencies.find? model.owner with
    | none => rfl
    | some target =>
        change (application.insertNested target.coordinate model >>= fun merged =>
          .ok (merged.insertAtRoot [])) = application.insertNested target.coordinate model
        cases application.insertNested target.coordinate model <;> rfl
  rw [same]
  exact bind_ok

theorem mergedEntry_congr (root : next.root = application.root) :
    next.mergedEntry = application.mergedEntry := by
  funext model
  rw [mergedEntry, mergedEntry, root]

/-- Merging models without inlining is inserting their entries. -/
theorem mergeAll_legacy_ok :
    mergeAll .legacy application models = .ok result ↔
      ∃ entries, models.mapM application.mergedEntry = .ok entries ∧
        application.insertEntries entries = .ok result := by
  simp only [mapM_ok]
  induction models generalizing application with
  | nil =>
      simp only [List.forall₂_nil_left_iff, exists_eq_left]
      exact Iff.rfl
  | cons model rest ih =>
      rw [mergeAll_cons]
      constructor
      · intro merged
        obtain ⟨next, here, later⟩ := merged
        obtain ⟨entry, made, inserted⟩ := merge_legacy_ok.mp here
        obtain ⟨entries, pairs, completed⟩ := ih.mp later
        rw [mergedEntry_congr (insertNested_ok inserted).2.1] at pairs
        exact ⟨entry :: entries, .cons made pairs,
          insertEntries_cons.mpr ⟨next, inserted, completed⟩⟩
      · intro inserting
        obtain ⟨entries, all, inserted⟩ := inserting
        obtain ⟨entry, later, made, pairs, rfl⟩ := List.forall₂_cons_left_iff.mp all
        obtain ⟨next, here, completed⟩ := insertEntries_cons.mp inserted
        rw [← mergedEntry_congr (insertNested_ok here).2.1] at pairs
        exact ⟨next, merge_legacy_ok.mpr ⟨entry, made, here⟩, ih.mpr ⟨later, pairs, completed⟩⟩

theorem mergeAll_reordered (permuted : models.Perm others)
    (merged : mergeAll .legacy application models = .ok result) :
    mergeAll .legacy application others = .ok result := by
  obtain ⟨entries, made, inserted⟩ := mergeAll_legacy_ok.mp merged
  -- the models in another order have the same entries in another order
  obtain ⟨reordered, pairs, moved⟩ := List.perm_comp_forall₂ permuted.symm (mapM_ok.mp made)
  exact mergeAll_legacy_ok.mpr
    ⟨reordered, mapM_ok.mpr pairs, insertEntries_perm moved.symm inserted⟩

theorem nested_mergeAll_legacy (merged : mergeAll .legacy application models = .ok result) :
    entry ∈ result.nested ↔
      entry ∈ application.nested ∨
        ∃ model ∈ models, application.mergedEntry model = .ok entry := by
  obtain ⟨entries, made, inserted⟩ := mergeAll_legacy_ok.mp merged
  obtain ⟨_, _, _, nested⟩ := insertEntries_ok.mp inserted
  rw [nested, mem_of_mapM_ok made]

/-- Merging without inlining succeeds on models in one order if and only if it succeeds on them in
any other, and then the results are the same: the root stays, and the nested models are those that
were there and the merged ones, each under the coordinate by which the root depends on its owner. -/
theorem mergeAll_legacy_perm (permuted : models.Perm others) :
    ((∃ result, mergeAll .legacy application others = .ok result) ↔
        ∃ result, mergeAll .legacy application models = .ok result) ∧
      ∀ left right, mergeAll .legacy application models = .ok left →
        mergeAll .legacy application others = .ok right →
          left = right ∧ left.root = application.root ∧
            ∀ entry, entry ∈ left.nested ↔ entry ∈ application.nested ∨
              ∃ model ∈ models, ∃ target,
                application.root.dependencies.find? model.owner = some target ∧
                  entry = (target.coordinate, model) := by
  refine ⟨⟨fun ⟨result, merged⟩ => ⟨result, mergeAll_reordered permuted.symm merged⟩,
    fun ⟨result, merged⟩ => ⟨result, mergeAll_reordered permuted merged⟩⟩, ?_⟩
  intro left right merged mergedOther
  have same := mergeAll_reordered permuted merged
  rw [mergedOther] at same
  refine ⟨(Except.ok.inj same).symm, root_mergeAll_legacy merged, fun entry => ?_⟩
  rw [nested_mergeAll_legacy merged]
  simp only [mergedEntry_ok]

/-- Two modules that have found a library at different places, and a second model for one of them,
which is refused wherever it stands. -/
theorem mergeAll_legacy_perm_repeated :
    let artifact (name location : String) : Artifact :=
      ⟨⟨"g", name, "1.0", "jar", none, none⟩, some location, false, .empty, .empty⟩
    let application := ofRoot (.ofDependencies ⟨"g", "bundle", "1.0", "jar", none, none⟩
      (.ofList [artifact "first" "/first.jar", artifact "second" "/second.jar"]))
    let model (name location : String) := Model.ofDependencies ⟨"g", name, "1.0", "jar", none, none⟩
      (.ofList [artifact "lib" location])
    let first := model "first" "/one/lib.jar"
    let second := model "second" "/two/lib.jar"
    let again := model "first" "/three/lib.jar"
    [first, second].Perm [second, first] ∧
      (∃ result, mergeAll .legacy application [first, second] = .ok result ∧
        mergeAll .legacy application [second, first] = .ok result ∧
          (second.owner, second) ∈ result.nested) ∧
      [first, second, again].Perm [again, first, second] ∧
        ¬∃ result, mergeAll .legacy application [again, first, second] = .ok result := by
  intro artifact application model first second again
  have swapped : [first, second].Perm [second, first] := .swap ..
  have moved : [first, second, again].Perm [again, first, second] := by decide +kernel
  have succeeds : (mergeAll .legacy application [first, second]).isOk = true := by
    decide +kernel
  have refused : (mergeAll .legacy application [first, second, again]).isOk = false := by
    decide +kernel
  obtain ⟨result, merged⟩ := exists_ok succeeds
  obtain ⟨both, same⟩ := mergeAll_legacy_perm swapped
  obtain ⟨other, mergedOther⟩ := both.mpr ⟨result, merged⟩
  obtain ⟨rfl, _, nested⟩ := same result other merged mergedOther
  refine ⟨swapped, ⟨result, merged, mergedOther, ?_⟩, moved, ?_⟩
  · exact (nested _).mpr (.inr ⟨second, List.mem_cons_of_mem _ (List.mem_singleton_self _),
      artifact "second" "/second.jar", by decide +kernel, rfl⟩)
  · rw [(mergeAll_legacy_perm moved).1]
    rintro ⟨merged, succeeded⟩
    rw [succeeded] at refused
    cases refused

end AppBundle.Application
