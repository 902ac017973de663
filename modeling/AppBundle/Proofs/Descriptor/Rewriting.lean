import AppBundle.Proofs.Descriptor.RoundTrip

namespace AppBundle

/-! Descriptors that are read and written again. Every accepted document gives a model whose
artifacts are all located, so that its descriptor is read back. Writing it a second time repeats the
first descriptor exactly where no two dependencies share a text, since collecting turns ties round;
writing it a third time always does.
-/

open Json

variable {document : Document} {artifact : Artifact} {artifacts : List Artifact} {model : Model}
  {content : ByteArray}

theorem located_of_readList (read : readList Artifact.read document = .ok artifacts) :
    ∀ artifact ∈ artifacts, artifact.Located := by
  intro artifact member
  obtain ⟨item, here⟩ := of_readList read member
  exact (Artifact.read_ok.mp here).2

theorem located_of_readSet {set : DependencySet} (read : DependencySet.read document = .ok set) :
    ∀ artifact ∈ set.artifacts, artifact.Located := by
  obtain ⟨artifacts, listed, rfl⟩ := map_ok.mp read
  intro artifact member
  exact located_of_readList listed artifact (DependencySet.of_mem_ofList member)

theorem located_of_readAddition {addition : Addition}
    (read : Addition.record.reader document = .ok addition) :
    ∀ artifact ∈ addition.dependencies, artifact.Located := by
  have keeps : ∀ draft field value next,
      (∀ artifact ∈ draft.dependencies, artifact.Located) →
        Addition.record.read draft field value = .ok next →
          ∀ artifact ∈ next.dependencies, artifact.Located := by
    intro draft field value next located filled
    simp only [Addition.record] at filled
    split at filled
    · obtain ⟨_, _, rfl⟩ := map_ok.mp filled
      exact located
    · obtain ⟨_, _, rfl⟩ := map_ok.mp filled
      exact located
    · obtain ⟨_, listed, rfl⟩ := map_ok.mp filled
      exact located_of_readList listed
    · cases filled
      exact located
  obtain ⟨missing, draft, located, finished⟩ :=
    RecordReader.of_reader keeps (fun _ member => absurd member List.not_mem_nil) read
  obtain ⟨_, _, rest⟩ := bind_ok.mp finished
  obtain ⟨_, _, done⟩ := bind_ok.mp rest
  cases done
  exact located

/-- What has been read of a model lacks no location. -/
structure ModelDraft.Located (draft : ModelDraft) : Prop where
  dependencies : ∀ artifact ∈ draft.dependencies.artifacts, artifact.Located
  additions : ∀ addition ∈ draft.additions, ∀ artifact ∈ addition.dependencies, artifact.Located

theorem ModelDraft.Located.read {draft next : ModelDraft} {field : String} (located : draft.Located)
    (filled : Model.record.read draft field document = .ok next) : next.Located := by
  obtain ⟨dependencies, additions⟩ := located
  simp only [Model.record] at filled
  split at filled
  · obtain ⟨_, _, rfl⟩ := map_ok.mp filled
    exact ⟨dependencies, additions⟩
  · obtain ⟨_, _, rfl⟩ := map_ok.mp filled
    exact ⟨dependencies, additions⟩
  · obtain ⟨_, listed, rfl⟩ := map_ok.mp filled
    exact ⟨located_of_readSet listed, additions⟩
  · obtain ⟨_, _, rfl⟩ := map_ok.mp filled
    exact ⟨dependencies, additions⟩
  · obtain ⟨_, _, rfl⟩ := map_ok.mp filled
    exact ⟨dependencies, additions⟩
  · obtain ⟨_, listed, rfl⟩ := map_ok.mp filled
    refine ⟨dependencies, fun addition member => ?_⟩
    obtain ⟨item, here⟩ := of_readList listed member
    exact located_of_readAddition here
  · cases filled
    exact ⟨dependencies, additions⟩

namespace Model

theorem located_of_reader (read : Model.record.reader document = .ok model) : model.Located := by
  have start : ModelDraft.Located Model.record.empty :=
    ⟨fun _ member => absurd member List.not_mem_nil, fun _ member => absurd member List.not_mem_nil⟩
  obtain ⟨missing, draft, located, finished⟩ :=
    RecordReader.of_reader (fun _ _ _ _ located filled => located.read filled) start read
  obtain ⟨_, _, done⟩ := bind_ok.mp finished
  cases done
  exact ⟨located.dependencies, located.additions⟩

/-- No document is accepted in which an artifact lacks its location. -/
theorem located_of_ofDescriptor (accepted : Model.ofDescriptor content = .ok model) :
    model.Located := by
  unfold ofDescriptor readFailure at accepted
  cases outcome : readFromContent Model.record.reader content with
  | error objection =>
      rw [outcome] at accepted
      cases accepted
  | ok found =>
      rw [outcome] at accepted
      cases accepted
      obtain ⟨document, here⟩ := of_readScalars outcome
      exact located_of_reader here

end Model

theorem Placeholder.faithful_parameterize (placeholder : Placeholder) :
    Presentation.Faithful placeholder.parameterize where
  coordinate artifact := by
    unfold Placeholder.parameterize
    split <;> rfl
  located artifact located := by
    unfold Placeholder.parameterize
    split
    · exact located
    · exact fun absent => nomatch absent

/-- Descriptors show locations as they are, or as they are in a bundle. -/
def Presentation.through : Option Placeholder → Presentation
  | none => id
  | some placeholder => placeholder.parameterize

theorem Presentation.faithful_through (bundled : Option Placeholder) :
    Presentation.Faithful (Presentation.through bundled) := by
  cases bundled with
  | none => exact Presentation.faithful_id
  | some placeholder => exact placeholder.faithful_parameterize

variable {present : Presentation}

theorem Presentation.Faithful.key (faithful : present.Faithful) (artifact : Artifact) :
    (present artifact).key = artifact.key :=
  congrArg Coordinate.text (faithful.coordinate artifact)

theorem Presentation.Faithful.identity (faithful : present.Faithful) (artifact : Artifact) :
    (present artifact).identity = artifact.identity :=
  congrArg Coordinate.identity (faithful.coordinate artifact)

namespace DependencySet

variable {set : DependencySet}

theorem untied_shown (faithful : present.Faithful) :
    Untied (artifacts.map present) ↔ Untied artifacts := by
  simp only [Untied, List.pairwise_map, faithful.key]

theorem distinct_shown (faithful : present.Faithful) :
    (set.artifacts.map present).Pairwise (·.identity ≠ ·.identity) := by
  simp only [List.pairwise_map, faithful.identity]
  exact set.distinct

theorem ordered_shown (faithful : present.Faithful) :
    (set.artifacts.map present).Pairwise Artifact.Precedes := by
  simp only [List.pairwise_map, Artifact.Precedes, faithful.key]
  exact set.ordered

theorem map_artifacts_eq_iff (faithful : present.Faithful) :
    (set.map present).artifacts = set.artifacts.map present ↔ Untied set.artifacts :=
  (ofList_artifacts_eq_iff (ordered_shown faithful) (distinct_shown faithful)).trans
    (untied_shown faithful)

theorem untied_map (faithful : present.Faithful) :
    Untied (set.map present).artifacts ↔ Untied set.artifacts := by
  have permuted : (set.map present).artifacts.Perm (set.artifacts.map present) :=
    ofList_perm (distinct_shown faithful)
  exact (permuted.pairwise_iff Ne.symm).trans (untied_shown faithful)

/-- Collecting twice puts the artifacts back into the order in which they are shown. -/
theorem map_id_map (faithful : present.Faithful) :
    ((set.map present).map id).artifacts = set.artifacts.map present := by
  rw [map, List.map_id]
  exact ofList_ofList (ordered_shown faithful) (distinct_shown faithful)

end DependencySet

namespace Model

theorem Located.presented {present : Presentation} (faithful : present.Faithful)
    (located : model.Located) : (model.presented present).Located where
  dependencies shown member := by
    obtain ⟨artifact, there, rfl⟩ := List.mem_map.mp (DependencySet.of_mem_ofList member)
    exact faithful.located artifact (located.dependencies artifact there)
  additions shown member := by
    obtain ⟨addition, there, rfl⟩ := List.mem_map.mp member
    intro other listed
    obtain ⟨artifact, here, rfl⟩ := List.mem_map.mp listed
    exact faithful.located artifact (located.additions addition there artifact here)

/-- What a descriptor shows is shown by any model with the same artifacts in the same order. -/
theorem toJson_presented {dependencies : DependencySet}
    (same : dependencies.artifacts = model.dependencies.artifacts.map present) :
    toJson id { model.presented present with dependencies } = model.toJson present := by
  have artifacts (listed : List Artifact) :
      artifactsJson id (listed.map present) = artifactsJson present listed := by
    rw [artifactsJson, List.map_map]
    rfl
  have additions : (model.additions.map (Placeholder.onAddition present)).map (·.toJson id) =
      model.additions.map (·.toJson present) := by
    rw [List.map_map]
    refine List.map_congr_left fun addition _ => ?_
    simp only [Function.comp, Addition.toJson, Placeholder.onAddition, artifacts]
  simp only [toJson, presented, same, artifacts, additions, List.isEmpty_map]

/-- Writing what was read gives the same bytes exactly where no two dependencies have one text. -/
theorem descriptor_presented_iff (faithful : present.Faithful) (located : model.Located)
    (pretty : Bool) :
    ((model.presented present).descriptor id pretty).toUTF8 =
        (model.descriptor present pretty).toUTF8 ↔ Untied model.dependencies.artifacts := by
  have first := ofDescriptor_presented faithful located pretty
  have again := ofDescriptor_presented Presentation.faithful_id (located.presented faithful) pretty
  constructor
  · intro same
    -- the same bytes are read back as the same model
    rw [same, first] at again
    have unchanged : (model.presented present).presented id = model.presented present :=
      (Except.ok.inj again).symm
    exact (DependencySet.untied_map faithful).mp (presented_id_eq_iff.mp unchanged)
  · intro untied
    have shown := toJson_presented ((DependencySet.map_artifacts_eq_iff faithful).mpr untied)
    exact congrArg (fun value => (value.render pretty).toUTF8) shown

theorem descriptor_presented_twice (faithful : present.Faithful) (pretty : Bool) :
    ((model.presented present).presented id).descriptor id pretty =
      model.descriptor present pretty := by
  rw [presented_id]
  exact congrArg (·.render pretty) (toJson_presented (DependencySet.map_id_map faithful))

/-- An accepted descriptor, written as it is or for a bundle, is accepted again. Writing it a second
time repeats the bytes of the first writing exactly where no two dependencies have the same text,
and writing it a third time repeats them always. -/
theorem ofDescriptor_rewritten (accepted : Model.ofDescriptor content = .ok model)
    (bundled : Option Placeholder) (pretty : Bool) :
    ∃ again third,
      Model.ofDescriptor (model.descriptor (.through bundled) pretty).toUTF8 = .ok again ∧
        ((again.descriptor id pretty).toUTF8 =
            (model.descriptor (.through bundled) pretty).toUTF8 ↔
          Untied model.dependencies.artifacts) ∧
        Model.ofDescriptor (again.descriptor id pretty).toUTF8 = .ok third ∧
          (third.descriptor id pretty).toUTF8 =
            (model.descriptor (.through bundled) pretty).toUTF8 := by
  have located := located_of_ofDescriptor accepted
  have faithful := Presentation.faithful_through bundled
  refine ⟨_, _, ofDescriptor_presented faithful located pretty,
    descriptor_presented_iff faithful located pretty,
    ofDescriptor_presented Presentation.faithful_id (located.presented faithful) pretty, ?_⟩
  rw [descriptor_presented_twice faithful]

/-- Two dependencies with different texts, written for a bundle with line breaks. -/
theorem ofDescriptor_rewritten_bundled :
    let artifact (group name : String) : Artifact :=
      ⟨⟨group, name, "1.0", "jar", none, none⟩, some "/x.jar", true, .ofList ["org"], .empty⟩
    let given := Model.ofDependencies ⟨"g", "app", "1.0", "jar", none, none⟩
      (.ofList [artifact "a:b" "c", artifact "a" "c:b"])
    let bundled := Placeholder.default.parameterize
    ∃ model again, Model.ofDescriptor (given.descriptor id false).toUTF8 = .ok model ∧
      Model.ofDescriptor (model.descriptor bundled true).toUTF8 = .ok again ∧
        (again.descriptor id true).toUTF8 = (model.descriptor bundled true).toUTF8 := by
  intro artifact given bundled
  have located : given.Located := ⟨by decide +kernel, by decide +kernel⟩
  have accepted := ofDescriptor_presented Presentation.faithful_id located false
  have untied : Untied (given.presented id).dependencies.artifacts := by decide +kernel
  obtain ⟨again, _, read, stable, _⟩ := ofDescriptor_rewritten accepted (some .default) true
  exact ⟨_, again, accepted, read, stable.mpr untied⟩

/-- The two dependencies have one text, `a:b:c:1.0:jar`, and change places. -/
theorem ofDescriptor_rewritten_tied :
    let artifact (group name : String) : Artifact :=
      ⟨⟨group, name, "1.0", "jar", none, none⟩, some "/x.jar", false, .empty, .empty⟩
    let given := Model.ofDependencies ⟨"g", "app", "1.0", "jar", none, none⟩
      (.ofList [artifact "a" "b:c", artifact "a:b" "c"])
    ∃ model again, Model.ofDescriptor (given.descriptor id false).toUTF8 = .ok model ∧
      Model.ofDescriptor (model.descriptor id false).toUTF8 = .ok again ∧
        (again.descriptor id false).toUTF8 ≠ (model.descriptor id false).toUTF8 := by
  intro artifact given
  have located : given.Located := ⟨by decide +kernel, by decide +kernel⟩
  have shown : (given.presented id).Located := located.presented Presentation.faithful_id
  have tied : ¬Untied (given.presented id).dependencies.artifacts := by decide +kernel
  refine ⟨_, _, ofDescriptor_presented Presentation.faithful_id located false,
    ofDescriptor_presented Presentation.faithful_id shown false, fun same => tied ?_⟩
  exact (descriptor_presented_iff Presentation.faithful_id shown false).mp same

end Model

end AppBundle
