import AppBundle.Proofs.DependencyOrder
import AppBundle.Proofs.Application.Reordering
import AppBundle.Proofs.Installation.Promises

namespace AppBundle.Application

/-! Which artifact stands where several sources list one identity. The collection goes through the
nested models in the order of their keys and sorts what it finds by another order, that of the
artifacts' texts. Its contents are told here by the sources alone, however they were inserted.
-/

variable {root : Model} {application : Application} {artifact : Artifact}
  {entries others : List (Coordinate × Model)}

/-- Among all that a root and nested models list under its identity an artifact prevails: it is the
root's, or else that of the nested model whose key is the smallest. -/
def Prevails (root : Model) (entries : List (Coordinate × Model)) (artifact : Artifact) : Prop :=
  artifact ∈ root.dependencies.artifacts ∨
    ¬root.dependencies.Holds artifact.identity ∧
      ∃ entry ∈ entries, artifact ∈ entry.2.dependencies.artifacts ∧
        ∀ other ∈ entries, other.2.dependencies.Holds artifact.identity →
          other = entry ∨ entry.1.order other.1 = .lt

instance : Decidable (Prevails root entries artifact) :=
  inferInstanceAs (Decidable (_ ∨ _ ∧ ∃ entry ∈ entries, _ ∧ ∀ other ∈ entries, _ → _ ∨ _))

/-- What a search through entries in the order of their keys finds is that of the smallest key. -/
theorem findSome?_ascending {α : Type} {value : α} {search : Coordinate × Model → Option α}
    (ascending : AscendingEntries entries) :
    entries.findSome? search = some value ↔
      ∃ entry ∈ entries, search entry = some value ∧
        ∀ other ∈ entries, (search other).isSome = true →
          other = entry ∨ entry.1.order other.1 = .lt := by
  rw [List.findSome?_eq_some_iff]
  constructor
  · intro found
    -- nothing is found before the entry, and all keys behind it are larger
    obtain ⟨before, entry, after, rfl, here, nothing⟩ := found
    obtain ⟨_, later, _⟩ := List.pairwise_append.mp ascending
    refine ⟨entry, by simp, here, fun other member known => ?_⟩
    rcases List.mem_append.mp member with early | late
    · rw [nothing other early] at known
      cases known
    · rcases List.mem_cons.mp late with same | behind
      · exact .inl same
      · exact .inr ((List.pairwise_cons.mp later).1 other behind)
  · intro smallest
    obtain ⟨entry, member, here, least⟩ := smallest
    obtain ⟨before, after, rfl⟩ := List.append_of_mem member
    obtain ⟨_, _, apart⟩ := List.pairwise_append.mp ascending
    refine ⟨before, entry, after, rfl, here, fun other early => ?_⟩
    have smaller := apart other early entry (List.mem_cons_self ..)
    rw [← Option.not_isSome_iff_eq_none]
    intro known
    rcases least other (List.mem_append_left _ early) known with rfl | larger
    · exact order_irrefl smaller
    · exact order_irrefl (Std.TransCmp.lt_trans smaller larger)

theorem mem_allArtifacts :
    artifact ∈ application.allArtifacts.artifacts ↔
      Prevails application.root application.nested artifact := by
  rw [DependencySet.mem_iff_find?, find?_allArtifacts, standing?, Option.or_eq_some_iff,
    ← DependencySet.mem_iff_find?, findSome?_ascending application.ascending,
    ← Option.not_isSome_iff_eq_none]
  simp only [← DependencySet.holds_iff_find?, ← DependencySet.mem_iff_find?]
  exact Iff.rfl

theorem prevails_congr (same : ∀ entry, entry ∈ entries ↔ entry ∈ others) :
    Prevails root entries artifact ↔ Prevails root others artifact := by
  simp only [Prevails, same]

/-- However nested models were inserted into a root, all artifacts are the union of what the sources
list: one artifact of each identity, in the order of the texts, which is the root's or else that of
the smallest key. Another order of insertion leads to the same artifacts. -/
theorem allArtifacts_of_entries
    (inserted : (ofRoot root).insertEntries entries = .ok application) :
    (∀ identity, application.allArtifacts.Holds identity ↔
        root.dependencies.Holds identity ∨
          ∃ entry ∈ entries, entry.2.dependencies.Holds identity) ∧
      application.allArtifacts.artifacts.Pairwise (·.identity ≠ ·.identity) ∧
      application.allArtifacts.artifacts.Pairwise Artifact.Precedes ∧
      (∀ artifact, artifact ∈ application.allArtifacts.artifacts ↔
        Prevails root entries artifact) ∧
      ∀ reordered, entries.Perm reordered →
        ∃ other, (ofRoot root).insertEntries reordered = .ok other ∧
          other.allArtifacts = application.allArtifacts := by
  obtain ⟨_, _, sameRoot, nested⟩ := insertEntries_ok.mp inserted
  have listed : ∀ entry, entry ∈ application.nested ↔ entry ∈ entries := fun entry =>
    (nested entry).trans (or_iff_right List.not_mem_nil)
  have rooted : application.root = root := sameRoot
  refine ⟨fun identity => ?_, application.allArtifacts.distinct, application.allArtifacts.ordered,
    fun artifact => ?_, fun reordered permuted => ?_⟩
  · rw [allArtifacts_holds, rooted]
    simp only [listed]
  · rw [mem_allArtifacts, rooted]
    exact prevails_congr listed
  · exact ⟨application, insertEntries_perm permuted inserted, rfl⟩

/-- A library is listed by three modules at different places, which are inserted against the order
of their keys, and one that the root lists as well. -/
theorem allArtifacts_of_entries_shadowed :
    let artifact (name location : String) : Artifact :=
      ⟨⟨"g", name, "1.0", "jar", none, none⟩, some location, false, .empty, .empty⟩
    let entry (name location : String) : Coordinate × Model :=
      (⟨"g", name, "1.0", "jar", some "mule-plugin", none⟩,
        .ofDependencies ⟨"g", name, "1.0", "jar", some "mule-plugin", none⟩
          (.ofList [artifact "lib" location, artifact "common" location]))
    let root := Model.ofDependencies ⟨"g", "bundle", "1.0", "jar", none, none⟩
      (.ofList [artifact "common" "/root"])
    let entries := [entry "third" "/3", entry "second" "/2", entry "first" "/1"]
    ∃ application other, (ofRoot root).insertEntries entries = .ok application ∧
      (ofRoot root).insertEntries entries.reverse = .ok other ∧
        other.allArtifacts = application.allArtifacts ∧
          artifact "lib" "/1" ∈ application.allArtifacts.artifacts ∧
            artifact "common" "/root" ∈ application.allArtifacts.artifacts ∧
              artifact "lib" "/3" ∉ application.allArtifacts.artifacts := by
  intro artifact entry root entries
  have succeeds : ((ofRoot root).insertEntries entries).isOk = true := by decide +kernel
  obtain ⟨application, inserted⟩ := exists_ok succeeds
  obtain ⟨_, _, _, kept, anyOrder⟩ := allArtifacts_of_entries inserted
  obtain ⟨other, reversed, same⟩ := anyOrder entries.reverse (List.reverse_perm entries).symm
  refine ⟨application, other, inserted, reversed, same, (kept _).mpr ?_, (kept _).mpr ?_, ?_⟩
  · decide +kernel
  · decide +kernel
  · rw [kept]
    decide +kernel

end AppBundle.Application
