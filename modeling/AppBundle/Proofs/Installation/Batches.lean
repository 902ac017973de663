import AppBundle.Proofs.CoordinateOrder
import AppBundle.Proofs.FileSystem.Parents
import AppBundle.Proofs.Installation.Layout

namespace AppBundle

/-! Batches and their directories. The artifacts of a batch share one directory, and different batches
have different ones. A coordinate whose parts lead inward has a directory inside of every repository.
-/

section Groups

variable {α : Type} {cmp : α → α → Ordering} [Std.TransCmp cmp] {groups : List (List α)}

theorem pairwise_sorted (values : List α) :
    (values.mergeSort fun left right => (cmp left right).isLE).Pairwise fun left right =>
      (cmp left right).isLE :=
  List.pairwise_mergeSort (fun _ _ _ => Std.TransCmp.isLE_trans) isLE_total values

theorem head_isLE {values : List α} {value : α}
    (sorted : values.Pairwise fun left right => (cmp left right).isLE)
    (occupied : values ≠ []) (member : value ∈ values) : (cmp (values.head occupied) value).isLE := by
  cases values with
  | nil => cases member
  | cons first rest =>
      rcases List.mem_cons.mp member with rfl | behind
      · exact isLE_self _
      · exact (List.pairwise_cons.mp sorted).1 value behind

theorem isLE_getLast {values : List α} {value : α}
    (sorted : values.Pairwise fun left right => (cmp left right).isLE)
    (occupied : values ≠ []) (member : value ∈ values) : (cmp value (values.getLast occupied)).isLE := by
  rw [← List.dropLast_concat_getLast occupied] at sorted member
  rcases List.mem_append.mp member with early | last
  · exact (List.pairwise_append.mp sorted).2.2 value early _ (List.mem_singleton_self _)
  · rw [List.mem_singleton.mp last]
    exact isLE_self _

/-- Where the groups of a sorted list differ from one to the next, all of them do. -/
theorem ascending_of_chain (sorted : groups.flatten.Pairwise fun left right => (cmp left right).isLE)
    (apart : groups.IsChain fun group next =>
      ∃ occupied occupied', (cmp (group.getLast occupied) (next.head occupied') == .eq) = false) :
    groups.Pairwise fun group next => ∀ left ∈ group, ∀ right ∈ next, cmp left right = .lt := by
  induction groups with
  | nil => exact .nil
  | cons group rest ih =>
      rw [List.flatten_cons, List.pairwise_append] at sorted
      obtain ⟨own, later, across⟩ := sorted
      refine List.pairwise_cons.mpr ⟨?_, ih later apart.tail⟩
      intro next listed left member right inside
      cases rest with
      | nil => cases listed
      | cons second rest =>
          -- from any of the group up to its last, over the gap, and on from the first behind it
          obtain ⟨occupied, occupied', different⟩ := (List.isChain_cons_cons.mp apart).1
          have up := isLE_getLast own occupied member
          have gap : cmp (group.getLast occupied) (second.head occupied') = .lt := by
            have ordered := across _ (List.getLast_mem occupied) (second.head occupied') (by simp)
            revert ordered different
            cases cmp (group.getLast occupied) (second.head occupied') <;> simp
          have on : (cmp (second.head occupied') right).isLE := by
            have there : right ∈ (second :: rest).flatten :=
              List.mem_flatten.mpr ⟨next, listed, inside⟩
            have begins := head_isLE later (List.ne_nil_of_mem there) there
            simpa [List.head_append, occupied'] using begins
          exact Std.TransCmp.lt_of_lt_of_isLE (Std.TransCmp.lt_of_isLE_of_lt up gap) on

end Groups

namespace Path

/-- The text of a name, and nothing for what is none. -/
def Component.label : Component → RawText
  | name text => text
  | _ => ""

theorem Component.order_eq :
    Component.order = compareLex (compareOn Component.rank) (compareOn Component.label) := by
  funext left right
  cases left <;> cases right <;>
    simp [Component.order, compareLex, compareOn, Component.rank, Component.label] <;> rfl

instance : Std.TransCmp Component.order := by
  rw [Component.order_eq]
  infer_instance

instance : Std.LawfulEqCmp Component.order where
  eq_of_compare {left right} same := by
    rw [Component.order_eq] at same
    simp only [compareLex, compareOn, Ordering.then_eq_eq, Std.LawfulEqCmp.compare_eq_iff_eq] at same
    obtain ⟨rank, label⟩ := same
    cases left <;> cases right <;> simp_all [Component.rank, Component.label]

theorem order_eq_iff {left right : Path} : left.order right = .eq ↔ left.SameComponents right := by
  constructor
  · intro same
    have same : List.compareLex Component.order left.components right.components = .eq := same
    exact Std.LawfulEqCmp.eq_of_compare same
  · intro same
    have components : left.components = right.components := same
    rw [order, components]
    exact Std.ReflCmp.compare_self

end Path

namespace Installer

variable {artifacts batch : List Artifact} {artifact other : Artifact}

instance : Std.TransCmp directoryOrder where
  eq_swap := (inferInstance : Std.OrientedCmp (List.compareLex Path.Component.order)).eq_swap
  isLE_trans := (inferInstance : Std.TransCmp (List.compareLex Path.Component.order)).isLE_trans

/-- Artifacts in the order of their directories are batched as they stand. -/
theorem batches_ordered
    (ordered : artifacts.Pairwise fun left right => (directoryOrder left right).isLE) :
    batches artifacts = artifacts.splitBy fun left right => directoryOrder left right == .eq := by
  rw [batches, byDirectory, List.mergeSort_of_pairwise ordered]

/-- The artifacts of a batch share a directory. -/
theorem batch_directory (listed : batch ∈ batches artifacts) (member : artifact ∈ batch)
    (member' : other ∈ batch) :
    artifact.coordinate.directory.SameComponents other.coordinate.directory := by
  let shares (left right : Artifact) : Prop :=
    left.coordinate.directory.components = right.coordinate.directory.components
  have transitive : Trans shares shares shares := ⟨fun same same' => same.trans same'⟩
  have symmetric : Std.Symm shares := ⟨fun _ _ same => same.symm⟩
  have chain : batch.IsChain shares := by
    refine (List.isChain_of_mem_splitBy listed).imp fun left right same => ?_
    exact Path.order_eq_iff.mp (by simpa [directoryOrder] using same)
  have reflexive : ∀ artifact ∈ batch, shares artifact artifact := fun _ _ => rfl
  exact chain.pairwise.forall_of_forall reflexive member member'

/-- Different batches have different directories. -/
theorem batches_apart :
    (batches artifacts).Pairwise fun left right => ∀ artifact ∈ left, ∀ other ∈ right,
      ¬artifact.coordinate.directory.SameComponents other.coordinate.directory := by
  have sorted : (byDirectory artifacts).Pairwise fun left right =>
      (directoryOrder left right).isLE :=
    pairwise_sorted artifacts
  have ascending : (batches artifacts).Pairwise fun left right => ∀ artifact ∈ left,
      ∀ other ∈ right, directoryOrder artifact other = .lt := by
    have chain : (batches artifacts).IsChain fun group next => ∃ occupied occupied',
        (directoryOrder (group.getLast occupied) (next.head occupied') == .eq) = false :=
      List.isChain_getLast_head_splitBy (fun left right => directoryOrder left right == .eq) _
    refine ascending_of_chain ?_ chain
    rw [batches, List.flatten_splitBy]
    exact sorted
  refine ascending.imp fun before artifact member other member' same => ?_
  have ahead := before artifact member other member'
  rw [directoryOrder, Path.order_eq_iff.mpr same] at ahead
  cases ahead

end Installer

namespace Coordinate

variable {coordinate other : Coordinate}

/-- No part holds a separator, and neither the group nor the name nor the version leads out of a
directory. -/
structure Inward (coordinate : Coordinate) : Prop where
  clean : ∀ piece ∈ coordinate.pieces, '/' ∉ piece.toList
  group : coordinate.group.toList.head? ≠ some '.'
  name : coordinate.name ≠ ".."
  version : coordinate.version ≠ ".."

instance : Decidable coordinate.Inward :=
  decidable_of_iff (_ ∧ _ ∧ _ ∧ _)
    ⟨fun ⟨clean, group, name, version⟩ => ⟨clean, group, name, version⟩,
      fun inward => ⟨inward.clean, inward.group, inward.name, inward.version⟩⟩

/-- The names from a repository down to a directory, without those that stay where they are. -/
def innerNames (coordinate : Coordinate) : Location :=
  Path.moves coordinate.directoryNames

namespace Inward

variable (inward : coordinate.Inward)

include inward

theorem groupClean : '/' ∉ coordinate.group.toList :=
  inward.clean _ (by simp [pieces])

theorem nameClean : Path.slash ∉ (RawText.ofText coordinate.name).bytes :=
  RawText.slash_mem_ofText.not.mpr (inward.clean _ (by simp [pieces]))

theorem versionClean : Path.slash ∉ (RawText.ofText coordinate.version).bytes :=
  RawText.slash_mem_ofText.not.mpr (inward.clean _ (by simp [pieces]))

theorem relative_group : (Path.mk coordinate.groupPath).isAbsolute = false := by
  have clean := inward.groupClean
  have start := inward.group
  have head : coordinate.groupPath.toList.head? ≠ some '/' := by
    rw [groupPath, Text.replaceChar, String.toList_ofList]
    cases chars : coordinate.group.toList with
    | nil => simp
    | cons first rest =>
        rw [chars] at clean start
        have notDot : first ≠ '.' := by simpa using start
        have notSlash : first ≠ '/' := fun same => clean (same ▸ List.mem_cons_self ..)
        simp [notDot, notSlash]
  simpa [Path.isAbsolute] using mt RawText.head?_ofText.mp head

theorem relative_directory : coordinate.directory.isAbsolute = false := by
  rw [directory, Path.isAbsolute_join (Path.isRelative_of_clean inward.versionClean),
    Path.isAbsolute_join (Path.isRelative_of_clean inward.nameClean), inward.relative_group]

theorem parts_groupPath : (RawText.ofText coordinate.groupPath).parts Path.slash =
    (Text.parts '.' coordinate.group).map RawText.ofText := by
  rw [RawText.parts_ofText]
  exact congrArg (List.map RawText.ofText) (Text.parts_replaceChar inward.groupClean)

theorem moving_directory : coordinate.directory.moving = coordinate.innerNames := by
  rw [directory, Path.moving_join (Path.isRelative_of_clean inward.versionClean),
    Path.moving_join (Path.isRelative_of_clean inward.nameClean)]
  simp only [Path.moving, inward.parts_groupPath, Path.parts_of_clean inward.nameClean,
    Path.parts_of_clean inward.versionClean, innerNames, directoryNames, ← Path.moves_append,
    List.append_assoc, List.singleton_append, List.map_append, List.map_cons, List.map_nil]

theorem isName_of_mem {name : RawText} (member : name ∈ coordinate.innerNames) : Path.IsName name := by
  obtain ⟨listed, down⟩ := List.mem_filter.mp member
  have stays : name ≠ "" ∧ name ≠ "." := by simpa using down
  rw [directoryNames, List.map_append, List.mem_append] at listed
  rcases listed with group | rest
  · have clean := RawText.separator_not_mem_parts (inward.parts_groupPath ▸ group)
    obtain ⟨piece, inside, rfl⟩ := List.mem_map.mp group
    have dotless := Text.separator_not_mem_parts inside
    refine ⟨clean, stays.1, stays.2, fun up => ?_⟩
    rw [RawText.ofText_inj.mp up] at dotless
    simp at dotless
  · simp only [List.map_cons, List.map_nil, List.mem_cons, List.not_mem_nil, or_false] at rest
    rcases rest with rfl | rfl
    · exact ⟨inward.nameClean, stays.1, stays.2, RawText.ofText_ne inward.name⟩
    · exact ⟨inward.versionClean, stays.1, stays.2, RawText.ofText_ne inward.version⟩

theorem extends_join (repository : Path) :
    repository.Extends coordinate.innerNames (repository.join coordinate.directory) := by
  refine ⟨?_, ?_, fun name => inward.isName_of_mem⟩
  · exact Path.isAbsolute_join inward.relative_directory repository
  · rw [Path.moving_join inward.relative_directory, inward.moving_directory]

theorem components_directory (grouped : coordinate.group ≠ "") :
    coordinate.directory.components = coordinate.innerNames.map Path.componentOf := by
  have nonempty : coordinate.groupPath ≠ "" := by
    simpa [groupPath, Text.replaceChar] using grouped
  have group : (Path.mk coordinate.groupPath).text ≠ "" := RawText.ofText_ne nonempty
  have name := Path.isRelative_of_clean inward.nameClean
  have version := Path.isRelative_of_clean inward.versionClean
  have joined : ((Path.mk coordinate.groupPath).join ⟨coordinate.name⟩).text ≠ "" := by
    rw [Path.join_relative name]
    simp [nonempty]
  have anchor : (Path.mk coordinate.groupPath).anchor = [] := by
    have notDot : ((Text.parts '.' coordinate.group).map RawText.ofText).head? ≠
        some ("." : RawText) := by
      intro head
      obtain ⟨piece, inside, dot⟩ := List.mem_map.mp (List.mem_of_mem_head? head)
      have dotless := Text.separator_not_mem_parts inside
      rw [RawText.ofText_inj.mp dot] at dotless
      simp at dotless
    rw [Path.anchor, inward.relative_group, inward.parts_groupPath, if_neg notDot]
    rfl
  have whole : (Path.mk coordinate.groupPath).components =
      Path.stepsOf coordinate.groupPath := by
    rw [Path.components_eq, anchor, List.nil_append]
  rw [directory, Path.components_join joined version, Path.components_join group name, whole,
    ← inward.moving_directory, directory, Path.moving_join version, Path.moving_join name,
    List.map_append, List.map_append]
  simp only [Path.stepsOf, Path.filterMap_componentOf?]

end Inward

/-- The directory ends with the version, unless that stays where it is. -/
theorem directory_ends (name : Path.IsName coordinate.version) (repository : Path) :
    (∃ base : Path, repository.join coordinate.directory = base.join ⟨coordinate.version⟩) ∧
      coordinate.innerNames.getLast? = some (RawText.ofText coordinate.version) := by
  refine ⟨⟨_, (Path.join_assoc _ _ _).symm⟩, ?_⟩
  have moves : ¬(RawText.ofText coordinate.version = "" ∨ RawText.ofText coordinate.version = ".") :=
    not_or.mpr ⟨name.down.1, name.down.2.1⟩
  have whole : coordinate.directoryNames =
      (Text.parts '.' coordinate.group ++ [coordinate.name]).map RawText.ofText ++
        [RawText.ofText coordinate.version] := by
    simp [directoryNames]
  rw [innerNames, whole, Path.moves_append, Path.moves_move moves, List.getLast?_append]
  rfl

theorem sameComponents_directory (inward : coordinate.Inward) (grouped : coordinate.group ≠ "")
    (inward' : other.Inward) (grouped' : other.group ≠ "") :
    coordinate.directory.SameComponents other.directory ↔ coordinate.innerNames = other.innerNames := by
  rw [Path.SameComponents, inward.components_directory grouped, inward'.components_directory grouped']
  exact (List.map_injective_iff.mpr Path.componentOf_injective).eq_iff

end Coordinate

end AppBundle
