import Mathlib.Data.List.Nodup
import AppBundle.Proofs.CoordinateText
import AppBundle.Proofs.DependencySet

namespace AppBundle

/-! Collecting artifacts that lie in order already. An artifact goes in before the first one that
does not come earlier, so among artifacts of one key the last one collected comes first: the order
of ties is turned round. Collecting changes nothing exactly where no two artifacts have the same
key, and collecting twice changes nothing at all.
-/

/-- No two artifacts have the same key. -/
abbrev Untied (artifacts : List Artifact) : Prop :=
  artifacts.Pairwise (·.key ≠ ·.key)

/-- Before another by its key, or related to it where the keys are the same. -/
def Artifact.Ahead (tied : Artifact → Artifact → Prop) (left right : Artifact) : Prop :=
  compare left.key right.key = .lt ∨ left.key = right.key ∧ tied left right

variable {artifact other : Artifact} {artifacts others : List Artifact}
  {related : Artifact → Artifact → Prop}

theorem Artifact.Precedes.lt_or_eq (before : artifact.Precedes other) :
    compare artifact.key other.key = .lt ∨ artifact.key = other.key := by
  unfold Artifact.Precedes at before
  cases outcome : compare artifact.key other.key with
  | lt => exact .inl rfl
  | eq => exact .inr (Std.LawfulEqCmp.eq_of_compare outcome)
  | gt => exact absurd outcome before

theorem compare_key_irrefl : compare artifact.key artifact.key ≠ .lt := by
  have same : compare artifact.key artifact.key = .eq := Std.ReflCmp.compare_self
  rw [same]
  decide

theorem Artifact.Ahead.precedes (ahead : Artifact.Ahead related artifact other) :
    artifact.Precedes other := by
  unfold Artifact.Precedes
  rcases ahead with before | ⟨same, _⟩
  · rw [before]
    decide
  · have equal : compare artifact.key other.key = .eq := by
      rw [same]
      exact Std.ReflCmp.compare_self
    rw [equal]
    decide

/-- Ties are broken in one way only. -/
theorem Artifact.Ahead.asymm
    (oneWay : related artifact other → ¬related other artifact)
    (ahead : Artifact.Ahead related artifact other) :
    ¬Artifact.Ahead related other artifact := by
  intro behind
  rcases ahead with before | ⟨same, here⟩
  · rcases behind with after | ⟨same, _⟩
    · exact compare_key_irrefl (Std.TransCmp.lt_trans before after)
    · rw [same] at before
      exact compare_key_irrefl before
  · rcases behind with after | ⟨_, there⟩
    · rw [same] at after
      exact compare_key_irrefl after
    · exact oneWay here there

/-- An artifact that comes after all others, related to each of them, is put before its ties. -/
theorem insertArtifact_ahead
    (ordered : artifacts.Pairwise (Artifact.Ahead fun left right => related right left))
    (last : ∀ other ∈ artifacts, other.Precedes artifact)
    (later : ∀ other ∈ artifacts, related other artifact) :
    (insertArtifact artifact artifacts).Pairwise
      (Artifact.Ahead fun left right => related right left) := by
  induction artifacts with
  | nil => simp [insertArtifact]
  | cons next rest ih =>
      obtain ⟨first, others⟩ := List.pairwise_cons.mp ordered
      obtain ⟨nextLast, restLast⟩ := List.forall_mem_cons.mp last
      obtain ⟨nextLater, restLater⟩ := List.forall_mem_cons.mp later
      simp only [insertArtifact]
      split
      · next before =>
          refine List.pairwise_cons.mpr ⟨fun other member => ?_, ih others restLast restLater⟩
          rcases mem_insertArtifact.mp member with rfl | old
          · exact .inl before
          · exact first other old
      · next notBefore =>
          have tie : next.key = artifact.key := nextLast.lt_or_eq.resolve_left notBefore
          refine List.pairwise_cons.mpr ⟨fun other member => ?_, ordered⟩
          rcases List.mem_cons.mp member with rfl | old
          · exact .inr ⟨tie.symm, nextLater⟩
          · have notAfter := (first other old).precedes
            -- everything behind a tie of the last artifact ties with it as well
            rcases (restLast other old).lt_or_eq with before | same
            · unfold Artifact.Precedes at notAfter
              rw [tie] at notAfter
              exact absurd (Std.OrientedCmp.gt_of_lt before) notAfter
            · exact .inr ⟨same.symm, restLater other old⟩

namespace DependencySet

variable {set : DependencySet}

theorem insertAll_ahead
    (ordered : set.artifacts.Pairwise (Artifact.Ahead fun left right => related right left))
    (before : ∀ known ∈ set.artifacts, ∀ artifact ∈ artifacts,
      known.Precedes artifact ∧ related known artifact)
    (ascending : artifacts.Pairwise fun left right => left.Precedes right ∧ related left right) :
    (set.insertAll artifacts).artifacts.Pairwise
      (Artifact.Ahead fun left right => related right left) := by
  induction artifacts generalizing set with
  | nil => exact ordered
  | cons artifact rest ih =>
      obtain ⟨first, others⟩ := List.pairwise_cons.mp ascending
      rw [insertAll, List.foldl_cons, ← insertAll]
      refine ih ?_ (fun known member later there => ?_) others
      · cases known : set.contains artifact.coordinate with
        | true =>
            rw [insert_known known]
            exact ordered
        | false =>
            rw [insert_artifacts known]
            exact insertArtifact_ahead ordered
              (fun other member => (before other member _ (List.mem_cons_self ..)).1)
              (fun other member => (before other member _ (List.mem_cons_self ..)).2)
      · rcases mem_insert.mp member with old | ⟨rfl, _⟩
        · exact before known old later (List.mem_cons_of_mem _ there)
        · exact first later there

theorem ofList_ahead (ordered : artifacts.Pairwise Artifact.Precedes)
    (ascending : artifacts.Pairwise related) :
    (ofList artifacts).artifacts.Pairwise
      (Artifact.Ahead fun left right => related right left) :=
  insertAll_ahead .nil (fun _ member => absurd member List.not_mem_nil) (ordered.and ascending)

theorem nodup_of_distinct (distinct : artifacts.Pairwise (·.identity ≠ ·.identity)) :
    artifacts.Nodup :=
  distinct.imp fun different same => different (congrArg _ same)

theorem ofList_perm (distinct : artifacts.Pairwise (·.identity ≠ ·.identity)) :
    (ofList artifacts).artifacts.Perm artifacts :=
  (List.perm_ext_iff_of_nodup (nodup_of_distinct (ofList artifacts).distinct)
    (nodup_of_distinct distinct)).mpr fun _ => mem_ofList distinct

/-- The place in a list tells any two of its artifacts apart. -/
theorem pairwise_idxOf (distinct : artifacts.Nodup) :
    artifacts.Pairwise fun left right => artifacts.idxOf left < artifacts.idxOf right := by
  rw [List.pairwise_iff_getElem]
  intro first second _ _ earlier
  rw [distinct.idxOf_getElem, distinct.idxOf_getElem]
  exact earlier

/-- An order that breaks every tie is the only one of its artifacts. -/
theorem eq_of_ahead (oneWay : ∀ left right, related left right → ¬related right left)
    (left : artifacts.Pairwise (Artifact.Ahead related))
    (right : others.Pairwise (Artifact.Ahead related)) (permuted : artifacts.Perm others) :
    artifacts = others := by
  refine List.Perm.eq_of_pairwise ?_ left right permuted
  intro first second _ _ ahead behind
  exact absurd behind (ahead.asymm (oneWay first second))

section Ordered

variable (ordered : artifacts.Pairwise Artifact.Precedes)
  (distinct : artifacts.Pairwise (·.identity ≠ ·.identity))

include ordered distinct

/-- Collecting ordered artifacts leaves them as they are exactly where there are no ties. -/
theorem ofList_artifacts_eq_iff : (ofList artifacts).artifacts = artifacts ↔ Untied artifacts := by
  have places := pairwise_idxOf (nodup_of_distinct distinct)
  have collected := ofList_ahead ordered places
  constructor
  · intro same
    rw [same] at collected
    refine (places.and collected).imp ?_
    intro left right both tie
    obtain ⟨earlier, before | ⟨_, later⟩⟩ := both
    · rw [tie] at before
      exact compare_key_irrefl before
    · exact absurd earlier (Nat.lt_asymm later)
  · intro untied
    refine eq_of_ahead (fun _ _ => Nat.lt_asymm) collected ?_ (ofList_perm distinct)
    refine (ordered.and untied).imp ?_
    intro left right both
    obtain ⟨before, different⟩ := both
    exact .inl (before.lt_or_eq.resolve_right different)

/-- Collecting a second time restores the order. -/
theorem ofList_ofList : (ofList (ofList artifacts).artifacts).artifacts = artifacts := by
  have places := pairwise_idxOf (nodup_of_distinct distinct)
  have once := ofList_ahead ordered places
  have twice := ofList_ahead (ofList artifacts).ordered once
  have oneWay : ∀ left right, artifacts.idxOf left < artifacts.idxOf right →
      ¬artifacts.idxOf right < artifacts.idxOf left := fun _ _ => Nat.lt_asymm
  refine eq_of_ahead oneWay (twice.imp ?_) ((ordered.and places).imp ?_)
    ((ofList_perm (ofList artifacts).distinct).trans (ofList_perm distinct))
  · intro left right ahead
    rcases ahead with before | ⟨tie, after | ⟨_, earlier⟩⟩
    · exact .inl before
    · rw [tie] at after
      exact absurd after compare_key_irrefl
    · exact .inr ⟨tie, earlier⟩
  · intro left right both
    obtain ⟨before, earlier⟩ := both
    rcases before.lt_or_eq with less | tie
    · exact .inl less
    · exact .inr ⟨tie, earlier⟩

end Ordered

theorem eq_of_artifacts {left right : DependencySet} (same : left.artifacts = right.artifacts) :
    left = right := by
  cases left
  cases right
  cases same
  rfl

theorem untied_of_parsed (parsed : ∀ artifact ∈ set.artifacts, artifact.coordinate.Parsed) :
    Untied set.artifacts :=
  set.distinct.imp_of_mem fun here there different tie =>
    different ((parsed _ here).identity_of_text (parsed _ there) tie)

theorem ascending_of_parsed (parsed : ∀ artifact ∈ set.artifacts, artifact.coordinate.Parsed) :
    set.artifacts.Pairwise fun left right => compare left.key right.key = .lt := by
  refine (set.ordered.and (untied_of_parsed parsed)).imp ?_
  intro left right both
  obtain ⟨before, different⟩ := both
  exact before.lt_or_eq.resolve_right different

/-- Where keys tell the artifacts apart, it does not matter in which order they are collected. -/
theorem ofList_of_perm (distinct : artifacts.Pairwise (·.identity ≠ ·.identity))
    (parsed : ∀ artifact ∈ artifacts, artifact.coordinate.Parsed)
    (permuted : artifacts.Perm others) : ofList others = ofList artifacts := by
  have apart : others.Pairwise (·.identity ≠ ·.identity) :=
    permuted.pairwise distinct fun different => different.symm
  have collected : (ofList others).artifacts.Perm (ofList artifacts).artifacts :=
    (ofList_perm apart).trans (permuted.symm.trans (ofList_perm distinct).symm)
  have ascending {collection : List Artifact} (same : collection.Perm artifacts) :
      (ofList collection).artifacts.Pairwise fun left right => compare left.key right.key = .lt :=
    ascending_of_parsed fun artifact member => parsed artifact (same.mem_iff.mp (of_mem_ofList member))
  refine eq_of_artifacts (List.Perm.eq_of_pairwise ?_ (ascending permuted.symm)
    (ascending (.refl _)) collected)
  intro left right _ _ before after
  exact absurd (Std.TransCmp.lt_trans before after) compare_key_irrefl

end DependencySet

end AppBundle
