import AppBundle.Descriptor.Reader
import AppBundle.Descriptor.Writer
import AppBundle.Proofs.CoordinateText
import AppBundle.Proofs.DependencyOrder
import AppBundle.Proofs.Json.Reader
import AppBundle.Proofs.Json.Spacing

namespace AppBundle

/-! Written descriptors are read back. Each record fills its draft field by field, and what was left
out is what the empty draft has. Only the dependencies are more than copied: they are collected into
a set again, and come back in their own order where their coordinates have different texts, as parsed
coordinates of different artifacts have.
-/

open Json RecordReader

section Fields

variable {α δ : Type} {record : RecordReader δ α} {draft next : δ} {name : String}

theorem fieldIf_listed (condition : Bool) (name : String) (value : Json) :
    ((fieldIf condition name value).map Prod.fst).Sublist [name] := by
  cases condition with
  | true => exact .refl _
  | false => exact List.nil_sublist _

theorem optionalField_listed (name : String) (value : Option String) :
    ((optionalField name value).map Prod.fst).Sublist [name] := by
  cases value with
  | some text => exact .refl _
  | none => exact List.nil_sublist _

/-- A field that was left out leaves the draft as it is. -/
theorem readFields_fieldIf {condition : Bool} {value : Json}
    (written : condition = true → record.read draft name value.document = .ok next)
    (omitted : condition = false → draft = next) :
    record.readFields draft (fieldIf condition name value) = .ok next := by
  cases condition with
  | true => exact readFields_cons (written rfl) rfl
  | false => exact congrArg Except.ok (omitted rfl)

theorem readFields_optionalField (fill : Option String → δ) {value : Option String}
    (written : ∀ text, record.read (fill none) name (.text text) = .ok (fill (some text))) :
    record.readFields (fill none) (optionalField name value) = .ok (fill value) := by
  cases value with
  | some text => exact readFields_cons (written text) rfl
  | none => rfl

theorem NameSet.read_names (names : NameSet) :
    NameSet.read (document (.texts names.names)) = .ok names := by
  have items : readList readString (document (.texts names.names)) = .ok (names.names.map id) :=
    readList_written fun _ _ => rfl
  rw [NameSet.read, items, List.map_id]
  exact congrArg Except.ok names.ofList_names

theorem readFields_namesField (fill : NameSet → δ) {names : NameSet}
    (written : ∀ document,
      record.read (fill .empty) name document = (NameSet.read document).map fill) :
    record.readFields (fill .empty) (namesField name names) = .ok (fill names) := by
  refine readFields_fieldIf (fun _ => ?_) fun isEmpty => ?_
  · rw [written, names.read_names]
    rfl
  · have none : names.isEmpty = true := by simpa using isEmpty
    rw [NameSet.eq_empty_of_isEmpty none]

end Fields

theorem Coordinate.reader_toJson (coordinate : Coordinate) :
    Coordinate.record.reader (document coordinate.toJson) = .ok coordinate := by
  obtain ⟨group, name, version, kind, classifier, scope⟩ := coordinate
  cases classifier <;> cases scope <;> rfl

namespace Artifact

variable {artifact : Artifact} {document : Document}

/-- Only domain references may have no location. -/
def Located (artifact : Artifact) : Prop :=
  artifact.location = none → artifact.coordinate.isDomain = true

instance : Decidable artifact.Located :=
  inferInstanceAs (Decidable (_ → _))

theorem reader_toJson (artifact : Artifact) :
    Artifact.record.reader (artifact.toJson).document = .ok artifact := by
  obtain ⟨coordinate, location, shared, namespaces, resources⟩ := artifact
  -- one fact for each field in the order of writing: the draft before it and the draft after it
  let draft := ArtifactDraft.mk (some coordinate)
  have named : record.readFields record.empty [("artifactCoordinates", coordinate.toJson)] =
      .ok (draft none false .empty .empty) := by
    refine readFields_cons ?_ rfl
    simp only [record, coordinate.reader_toJson]
    rfl
  have located : record.readFields (draft none false .empty .empty) (optionalField "uri" location) =
      .ok (draft location false .empty .empty) :=
    readFields_optionalField (draft · false .empty .empty) fun _ => rfl
  have marked : record.readFields (draft location false .empty .empty)
      (fieldIf shared "shared" (.boolean true)) = .ok (draft location shared .empty .empty) :=
    readFields_fieldIf (fun here => here ▸ rfl) (fun absent => absent ▸ rfl)
  have exported : record.readFields (draft location shared .empty .empty)
      (namesField "packages" namespaces) = .ok (draft location shared namespaces .empty) :=
    readFields_namesField (draft location shared · .empty) fun _ => rfl
  have filled : record.readFields (draft location shared namespaces .empty)
      (namesField "resources" resources) = .ok (draft location shared namespaces resources) :=
    readFields_namesField (draft location shared namespaces) fun _ => rfl
  refine reader_written (by decide) ?_ (readFields_append (readFields_append
    (readFields_append (readFields_append named located) marked) exported) filled)
  simp only [List.map_append]
  exact ((((List.Sublist.refl ["artifactCoordinates"]).append (optionalField_listed ..)).append
    (fieldIf_listed ..)).append (fieldIf_listed ..)).append (fieldIf_listed ..)

/-- Reading an artifact asks for its location last. -/
theorem read_ok :
    Artifact.read document = .ok artifact ↔
      Artifact.record.reader document = .ok artifact ∧ artifact.Located := by
  have resolved : (∃ other, Artifact.resolved artifact.coordinate artifact.location = .ok other) ↔
      artifact.Located := by
    unfold Artifact.resolved Located
    cases artifact.location <;> cases artifact.coordinate.isDomain <;> simp
  unfold Artifact.read
  rw [bind_ok]
  constructor
  · intro outcome
    obtain ⟨found, read, checked⟩ := outcome
    split at checked
    · cases checked
    · next other outcome =>
        cases checked
        exact ⟨read, resolved.mp ⟨other, outcome⟩⟩
  · intro both
    obtain ⟨read, located⟩ := both
    obtain ⟨other, outcome⟩ := resolved.mpr located
    refine ⟨artifact, read, ?_⟩
    rw [outcome]
    rfl

end Artifact

/-- Shows artifacts under their own coordinates and takes no location away. -/
structure Presentation.Faithful (present : Presentation) : Prop where
  coordinate : ∀ artifact, (present artifact).coordinate = artifact.coordinate
  located : ∀ artifact, artifact.Located → (present artifact).Located

theorem Presentation.faithful_id : Presentation.Faithful id :=
  ⟨fun _ => rfl, fun _ => id⟩

/-- Each artifact has its location, in both places where a model lists artifacts. -/
structure Model.Located (model : Model) : Prop where
  dependencies : ∀ artifact ∈ model.dependencies.artifacts, artifact.Located
  additions : ∀ addition ∈ model.additions, ∀ artifact ∈ addition.dependencies, artifact.Located

/-- The model that a descriptor shows. -/
def Model.presented (present : Presentation) (model : Model) : Model :=
  { model with
    dependencies := model.dependencies.map present
    additions := model.additions.map (Placeholder.onAddition present) }

variable {present : Presentation} {model : Model}

theorem readList_artifactsJson {artifacts : List Artifact}
    (located : ∀ artifact ∈ artifacts, (present artifact).Located) :
    readList Artifact.read (artifactsJson present artifacts).document =
      .ok (artifacts.map present) :=
  readList_written fun artifact member =>
    Artifact.read_ok.mpr ⟨(present artifact).reader_toJson, located artifact member⟩

theorem Addition.reader_toJson {addition : Addition}
    (located : ∀ artifact ∈ addition.dependencies, (present artifact).Located) :
    Addition.record.reader (addition.toJson present).document =
      .ok (Placeholder.onAddition present addition) := by
  have dependencies := readList_artifactsJson located
  obtain ⟨group, name, artifacts⟩ := addition
  let draft := AdditionDraft.mk (some group) (some name)
  have filled : record.readFields (draft [])
      [("additionalDependencies", artifactsJson present artifacts)] =
        .ok (draft (artifacts.map present)) := by
    refine readFields_cons ?_ rfl
    simp only [record, dependencies]
    rfl
  exact reader_written (by decide) (.refl _)
    (readFields_cons rfl (readFields_cons rfl filled))

namespace Model

/-- Each artifact is shown with its location. -/
structure ShowsLocations (present : Presentation) (model : Model) : Prop where
  dependencies : ∀ artifact ∈ model.dependencies.artifacts, (present artifact).Located
  additions : ∀ addition ∈ model.additions, ∀ artifact ∈ addition.dependencies,
    (present artifact).Located

theorem Located.shown (located : model.Located) (faithful : present.Faithful) :
    model.ShowsLocations present where
  dependencies artifact member := faithful.located artifact (located.dependencies artifact member)
  additions addition member artifact there :=
    faithful.located artifact (located.additions addition member artifact there)

theorem reader_toJson (shown : model.ShowsLocations present) :
    Model.record.reader (model.toJson present).document = .ok (model.presented present) := by
  obtain ⟨formatVersion, owner, dependencies, namespaces, resources, additions⟩ := model
  let draft := ModelDraft.mk formatVersion (some owner)
  let collected := dependencies.map present
  have listed := readList_artifactsJson shown.dependencies
  have named : record.readFields record.empty
      [("version", .text formatVersion), ("artifactCoordinates", owner.toJson),
        ("dependencies", artifactsJson present dependencies.artifacts)] =
          .ok (draft collected .empty .empty []) := by
    have owned : record.read ⟨formatVersion, none, .empty, .empty, .empty, []⟩
        "artifactCoordinates" owner.toJson.document = .ok (draft .empty .empty .empty []) := by
      simp only [record, owner.reader_toJson]
      rfl
    refine readFields_cons rfl (readFields_cons owned (readFields_cons ?_ rfl))
    simp only [record, DependencySet.read, listed]
    rfl
  have exported : record.readFields (draft collected .empty .empty [])
      (namesField "packages" namespaces) = .ok (draft collected namespaces .empty []) :=
    readFields_namesField (draft collected · .empty []) fun _ => rfl
  have provided : record.readFields (draft collected namespaces .empty [])
      (namesField "resources" resources) = .ok (draft collected namespaces resources []) :=
    readFields_namesField (draft collected namespaces · []) fun _ => rfl
  have added : readList Addition.record.reader
      (document (.array (additions.map (·.toJson present)))) =
        .ok (additions.map (Placeholder.onAddition present)) :=
    readList_written fun addition member =>
      Addition.reader_toJson (shown.additions addition member)
  have filled : record.readFields (draft collected namespaces resources [])
      (fieldIf (!additions.isEmpty) "additionalPluginDependencies"
        (.array (additions.map (·.toJson present)))) =
          .ok (draft collected namespaces resources
            (additions.map (Placeholder.onAddition present))) := by
    refine readFields_fieldIf (fun _ => ?_) fun isEmpty => ?_
    · simp only [record, added]
      rfl
    · have none : additions = [] := by simpa using isEmpty
      rw [none]
      rfl
  refine reader_written (by decide) ?_ (readFields_append
    (readFields_append (readFields_append named exported) provided) filled)
  simp only [List.map_append]
  exact (((List.Sublist.refl ["version", "artifactCoordinates", "dependencies"]).append
    (fieldIf_listed ..)).append (fieldIf_listed ..)).append (fieldIf_listed ..)

theorem ofDescriptor_shown (shown : model.ShowsLocations present) (pretty : Bool) :
    Model.ofDescriptor (model.descriptor present pretty).toUTF8 =
      .ok (model.presented present) := by
  rw [ofDescriptor, descriptor, readFromContent_render, reader_toJson shown]
  rfl

theorem ofDescriptor_presented (faithful : present.Faithful) (located : model.Located)
    (pretty : Bool) :
    Model.ofDescriptor (model.descriptor present pretty).toUTF8 =
      .ok (model.presented present) :=
  ofDescriptor_shown (located.shown faithful) pretty

theorem presented_id : model.presented id =
    { model with dependencies := model.dependencies.map id } := by
  have additions : model.additions.map (Placeholder.onAddition id) = model.additions := by
    refine (List.map_congr_left fun addition _ => ?_).trans model.additions.map_id
    rw [Placeholder.onAddition, List.map_id]
    rfl
  rw [presented, additions]

/-- Only the order of ties is not kept. -/
theorem presented_id_eq_iff : model.presented id = model ↔ Untied model.dependencies.artifacts := by
  have collected : (model.dependencies.map id).artifacts = model.dependencies.artifacts ↔
      Untied model.dependencies.artifacts := by
    rw [DependencySet.map, List.map_id]
    exact DependencySet.ofList_artifacts_eq_iff model.dependencies.ordered
      model.dependencies.distinct
  rw [← collected, presented_id]
  constructor
  · intro same
    exact congrArg (fun model => model.dependencies.artifacts) same
  · intro same
    rw [DependencySet.eq_of_artifacts same]

/-- A model whose dependencies have parsed coordinates is read back as it was, pretty or not. -/
theorem ofDescriptor_descriptor
    (parsed : ∀ artifact ∈ model.dependencies.artifacts, artifact.coordinate.Parsed)
    (located : model.Located) (pretty : Bool) :
    Model.ofDescriptor (model.descriptor id pretty).toUTF8 = .ok model := by
  rw [ofDescriptor_presented Presentation.faithful_id located,
    presented_id_eq_iff.mpr (DependencySet.untied_of_parsed parsed)]

/-- Escapes, a domain reference without a location, marks of sharing and additions. -/
theorem ofDescriptor_descriptor_escapes :
    let domain : Artifact :=
      ⟨⟨"g", "shared", "1.0", "jar", some "mule-domain", none⟩, none, false, .empty, .empty⟩
    let driver : Artifact :=
      ⟨⟨"g", "driver", "2.1", "jar", none, some "provided"⟩, some "C:\\m2\\\"driver\".jar", true,
        .ofList ["org.driver"], .ofList ["META-INF/driver\n\x01.properties", "ümläut"]⟩
    let model : Model :=
      ⟨"1.2.0", ⟨"g", "app", "1.0", "zip", none, none⟩, .ofList [driver, domain],
        .ofList ["org.app", "com.app"], .empty, [⟨"g", "module", [driver, driver]⟩, ⟨"", "", []⟩]⟩
    Model.ofDescriptor (model.descriptor id true).toUTF8 = .ok model := by
  intro domain driver model
  have parsed : ∀ artifact ∈ model.dependencies.artifacts, artifact.coordinate.Parsed := by
    intro artifact member
    have given : artifact ∈ [driver, domain] := DependencySet.of_mem_ofList member
    simp only [List.mem_cons, List.not_mem_nil, or_false] at given
    rcases given with rfl | rfl
    · exact ⟨"g:driver:2.1", _, rfl, rfl⟩
    · exact ⟨"g:shared:1.0:jar:mule-domain", _, rfl, rfl⟩
  have located : model.Located := ⟨by decide +kernel, by decide +kernel⟩
  exact ofDescriptor_descriptor parsed located true

theorem ofDescriptor_pretty (present : Presentation) (pretty : Bool) (model : Model) :
    Model.ofDescriptor (model.descriptor present pretty).toUTF8 =
      Model.ofDescriptor (model.descriptor present false).toUTF8 := by
  rw [ofDescriptor, ofDescriptor, descriptor, descriptor, readFromContent_render,
    readFromContent_render]

/-- A pretty descriptor without the white space outside of its strings is the compact one byte for
byte. Both are read with the same result: the model as it was presented, wherever each artifact is
shown with its location. -/
theorem descriptor_spacing (present : Presentation) (model : Model) :
    withoutSpaces (model.descriptor present true).toUTF8 =
        (model.descriptor present false).toUTF8 ∧
      Model.ofDescriptor (model.descriptor present true).toUTF8 =
        Model.ofDescriptor (model.descriptor present false).toUTF8 ∧
      (model.ShowsLocations present →
        Model.ofDescriptor (model.descriptor present true).toUTF8 =
          .ok (model.presented present)) :=
  ⟨withoutSpaces_render (model.toJson present) true, ofDescriptor_pretty present true model,
    fun shown => ofDescriptor_shown shown true⟩

/-- Quotes, braces, a backslash at the end of a string and spaces of all kinds in strings, which the
deletion passes over. -/
theorem descriptor_spacing_quoted :
    let library : Artifact :=
      ⟨⟨"g", "a \" b\\", "1.0", "jar", none, none⟩, some "/m2/\x7b \\\" \x7d.jar", true,
        .ofList ["a , b", " : "], .ofList ["line\n\ttab", "ü  "]⟩
    let model := Model.ofDependencies ⟨"g", "app\\", "1.0", "zip", none, none⟩ (.ofList [library])
    let present := Placeholder.default.parameterize
    model.ShowsLocations present ∧
      model.descriptor present true ≠ model.descriptor present false ∧
        withoutSpaces (model.descriptor present true).toUTF8 =
            (model.descriptor present false).toUTF8 ∧
          Model.ofDescriptor (model.descriptor present true).toUTF8 =
            .ok (model.presented present) := by
  intro library model present
  have shown : model.ShowsLocations present := ⟨by decide +kernel, by decide +kernel⟩
  obtain ⟨spacing, _, read⟩ := descriptor_spacing present model
  exact ⟨shown, by decide +kernel, spacing, read shown⟩

end Model

end AppBundle
