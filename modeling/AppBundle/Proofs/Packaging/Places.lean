import AppBundle.Proofs.Packaging.Relocation

namespace AppBundle

/-! The place of a payload, computed three times. A reader of a bundle splits portable text into
names and joins them one by one, an installer joins the directory of a coordinate and then the file,
and a snapshot joins the whole relative path. Placeholders may end with separators, which the reader
has dropped and the others have not. The reader and the snapshot answer with a text, so that they mean
the same place as the installer only where its path is one.
-/

variable {artifact : Artifact} {configuration : Configuration} {output repository : Path}
  {application : Application} {installer : Installer} {record : SnapshotRecord}
  {entry : SnapshotEntry} {snapshot : Snapshot}

theorem Placeholder.sameComponents_ofText {text : String} (named : (ofText text).name ≠ "") :
    (Path.mk (ofText text).name).SameComponents ⟨text⟩ := by
  have kept : text.toList.reverse.dropWhile (· = '/') ≠ [] := by
    simpa [ofText, Text.trimEndWhile] using named
  have dropped := Path.components_dropSeparators kept
  rwa [List.reverse_reverse, String.ofList_toList] at dropped

/-- What is written portably is read from a descriptor of the bundle as a place in its repository. -/
theorem Configuration.placeOf_same (valid : configuration.validate = .ok ())
    {coordinate : Coordinate} (relative : coordinate.localPath.isAbsolute = false) :
    (configuration.placeholder.placeOf (Model.bundleRoot (Model.rootDescriptorPath output))
        coordinate).SameComponents
      ((output.join ⟨configuration.repositoryPlaceholder⟩).join coordinate.localPath) := by
  have named := configuration.placeholder_named valid
  have configured : configuration.repositoryPlaceholder ≠ "" := by
    intro empty
    rw [placeholder, empty] at named
    exact named rfl
  have repository : (output.join ⟨configuration.placeholder.name⟩).components =
      (output.join ⟨configuration.repositoryPlaceholder⟩).components :=
    Path.join_congr_next (Placeholder.sameComponents_ofText named)
  have nonempty : (output.join ⟨configuration.repositoryPlaceholder⟩).text ≠ "" :=
    Path.nonempty_join (Path.nonempty_mk configured) output
  rw [Model.bundleRoot_rootDescriptorPath, Path.SameComponents,
    Placeholder.components_placeOf named, repository, Path.components_join nonempty relative,
    Coordinate.stepsOf_repositoryPath relative]

theorem SnapshotEntry.location_of_resolve {children : List Coordinate}
    (resolved : entry.resolve repository = .ok (artifact, children)) :
    artifact.location = entry.locate artifact.coordinate repository := by
  obtain ⟨coordinate, _, resolved⟩ := bind_ok.mp resolved
  obtain ⟨_, _, resolved⟩ := bind_ok.mp resolved
  obtain ⟨made, known, resolved⟩ := bind_ok.mp resolved
  cases resolved
  unfold Artifact.resolved at known
  split at known
  · cases known
  · cases known
    rfl

/-- A node whose entry names no place is looked for where the repository keeps its coordinate. -/
theorem Snapshot.location_of_record (loaded : Snapshot.ofRecord record repository = .ok snapshot)
    {reference : Coordinate} (listed : record.entryFor? reference = some entry)
    (unplaced : entry.location = none) (notDomain : reference.isDomain = false) :
    ∃ node, snapshot.nodes.find? reference = some node ∧
      (node.artifact.coordinate.kind = reference.kind →
        node.artifact.location = some (repository.join reference.localPath).shown) := by
  rcases Snapshot.node_of_record loaded reference with ⟨_, unlisted⟩ |
    ⟨node, other, found, same, resolved⟩
  · rw [listed] at unlisted
    cases unlisted
  · rw [listed] at same
    cases same
    have identity : node.artifact.coordinate.identity = reference.identity :=
      node.keyed.symm.trans (identity_of_nodeFor? found)
    have classifier : node.artifact.coordinate.classifier = reference.classifier :=
      congrArg Identity.classifier identity
    have still : node.artifact.coordinate.isDomain = false := by
      rw [Coordinate.isDomain, classifier]
      exact notDomain
    refine ⟨node, found, fun kind => ?_⟩
    rw [SnapshotEntry.location_of_resolve resolved, SnapshotEntry.locate, unplaced,
      Coordinate.localPath_congr identity kind]
    simp [still]

theorem Coordinate.isText_localPath (coordinate : Coordinate) : coordinate.localPath.isText = true :=
  Path.isText_join_of (Path.isText_join_of (Path.isText_join_of (Path.isText_mk _) (Path.isText_mk _))
    (Path.isText_mk _)) (Path.isText_mk _)

/-- A place in a repository is a text where the path of the repository is one. -/
theorem Configuration.isText_place {coordinate : Coordinate}
    (relative : coordinate.localPath.isAbsolute = false) :
    ((output.join ⟨configuration.repositoryPlaceholder⟩).join coordinate.localPath).isText = true ↔
      output.isText = true ∨ (Path.mk configuration.repositoryPlaceholder).isAbsolute = true := by
  rw [Path.isText_join relative, and_iff_left coordinate.isText_localPath]
  cases absolute : (Path.mk configuration.repositoryPlaceholder).isAbsolute with
  | true =>
      rw [Path.join, if_pos absolute]
      exact iff_of_true (Path.isText_mk _) (.inr rfl)
  | false =>
      rw [Path.isText_join absolute, and_iff_left (Path.isText_mk _)]
      simp

/-- In a bundle a payload has one place, however it is found: read from a descriptor of the bundle,
written by an installer into the bundle's repository, or looked for there by a snapshot whose node
names no place. What is read and what is looked for is that place repaired as a text, and so another
one where the path of the repository is none. -/
theorem Configuration.places_agree (valid : configuration.validate = .ok ())
    (notDomain : artifact.coordinate.isDomain = false)
    (relative : artifact.coordinate.localPath.isAbsolute = false) (output : Path) :
    let repository := output.join ⟨configuration.repositoryPlaceholder⟩
    let place := repository.join artifact.coordinate.localPath
    let textual :=
      output.isText = true ∨ (Path.mk configuration.repositoryPlaceholder).isAbsolute = true
    (∃ reached : Path,
      (configuration.placeholder.localize (Model.bundleRoot (Model.rootDescriptorPath output))
          (configuration.placeholder.parameterize artifact)).location = some reached.shown ∧
        reached.SameComponents place ∧ ((Path.mk reached.shown).SameComponents place ↔ textual)) ∧
      (∀ installer : Installer, installer.repository = repository →
        installer.payloadPath artifact.coordinate = place ∧
          ∀ application source, artifact ∈ Installer.packaged application →
            artifact.locationPath = .ok source →
              .copy artifact.coordinate source place ∈ installer.steps application) ∧
      (∀ record snapshot, Snapshot.ofRecord record repository = .ok snapshot →
        ∀ entry, record.entryFor? artifact.coordinate = some entry → entry.location = none →
          ∃ node, snapshot.nodes.find? artifact.coordinate = some node ∧
            (node.artifact.coordinate.kind = artifact.coordinate.kind →
              node.artifact.location = some place.shown)) ∧
      ((Path.mk place.shown).SameComponents place ↔ textual) := by
  intro repository place textual
  have shown : (Path.mk place.shown).SameComponents place ↔ textual :=
    (Path.sameComponents_shown_iff rfl).trans (isText_place relative)
  refine ⟨⟨_, Placeholder.location_relocate_of_not_domain notDomain, placeOf_same valid relative, ?_⟩,
    fun installer same => ?_, fun record snapshot loaded entry listed unplaced => ?_, shown⟩
  · exact (Path.sameComponents_shown_iff (placeOf_same valid relative)).trans (isText_place relative)
  · have payload : installer.payloadPath artifact.coordinate = place := by
      rw [Installer.payloadPath_eq, same]
    refine ⟨payload, fun application source member located => ?_⟩
    rw [← payload]
    exact Installer.copy_mem_steps member located
  · exact Snapshot.location_of_record loaded listed unplaced notDomain

/-- Empty groups, names with separators and dots, and separators behind the placeholder. -/
theorem Configuration.places_agree_separators :
    let coordinate : Coordinate := ⟨"a..b.", "x/./y", "..", "jar", none, none⟩
    let artifact : Artifact := ⟨coordinate, some "/m2/y.jar", false, .empty, .empty⟩
    let configuration := { Configuration.default with repositoryPlaceholder := "./libs//" }
    let output : Path := ⟨"out/."⟩
    let repository := output.join ⟨"./libs//"⟩
    let record : SnapshotRecord := ⟨"g:app:1.0", [], [⟨coordinate.text, none, none, []⟩]⟩
    let installer : Installer := ⟨repository, configuration.placeholder, false, false⟩
    let place : Path := ⟨"out/libs/a/b/x/y/../x/y-...jar"⟩
    configuration.validate = .ok () ∧
      ∃ (read looked : String) (snapshot : Snapshot) (node : Node),
        (configuration.placeholder.localize (Model.bundleRoot (Model.rootDescriptorPath output))
            (configuration.placeholder.parameterize artifact)).location = some read ∧
          (Path.mk read).SameComponents place ∧
          (installer.payloadPath coordinate).SameComponents place ∧
          Snapshot.ofRecord record repository = .ok snapshot ∧
          snapshot.nodes.find? coordinate = some node ∧
          node.artifact.location = some looked ∧ (Path.mk looked).SameComponents place := by
  intro coordinate artifact configuration output repository record installer place
  have valid : configuration.validate = .ok () := by decide +kernel
  let snapshot : Snapshot := ⟨⟨"g", "app", "1.0", "jar", none, none⟩, [], .ofList [({ artifact with
    location := some (repository.join coordinate.localPath).shown }, [])]⟩
  have loaded : Snapshot.ofRecord record repository = .ok snapshot := by decide +kernel
  have listed : record.entryFor? coordinate = some ⟨coordinate.text, none, none, []⟩ := by
    decide +kernel
  have kinds : ∀ node ∈ snapshot.nodes.find? coordinate,
      node.artifact.coordinate.kind = coordinate.kind := by
    decide +kernel
  have written : (installer.payloadPath coordinate).SameComponents place := by decide +kernel
  have notDomain : artifact.coordinate.isDomain = false := by decide
  have relative : artifact.coordinate.localPath.isAbsolute = false := by decide +kernel
  obtain ⟨⟨reached, read, _, same⟩, installs, looks, shown⟩ :=
    places_agree valid notDomain relative output
  obtain ⟨payload, _⟩ := installs installer (by decide +kernel)
  obtain ⟨node, found, located⟩ := looks record snapshot loaded _ listed rfl
  have whole : (repository.join coordinate.localPath).SameComponents place := payload ▸ written
  have isText : output.isText = true := Path.isText_mk "out/."
  have there := (same.mpr (.inl isText)).trans whole
  have again := (shown.mpr (.inl isText)).trans whole
  exact ⟨valid, reached.shown, (repository.join coordinate.localPath).shown, snapshot, node, read,
    there, written, loaded, found, located (kinds node found), again⟩

/-- Below an output that is no text the place is read as another one, and what is provided has no
payload anywhere. -/
theorem Configuration.places_differ :
    let coordinate : Coordinate := ⟨"g", "lib", "1", "jar", none, none⟩
    let library : Artifact := ⟨coordinate, some "/lib.jar", false, .empty, .empty⟩
    let provided : Artifact :=
      ⟨⟨"g", "lib", "1", "jar", none, some "provided"⟩, some "/lib.jar", false, .empty, .empty⟩
    let output : Path := ⟨⟨[0x6F, 0x75, 0x74, 0xFF]⟩⟩
    let repository := output.join ⟨default.repositoryPlaceholder⟩
    let application := Application.ofRoot
      (.ofDependencies ⟨"g", "app", "1", "jar", none, none⟩ (.ofList [provided]))
    let installer : Installer := ⟨repository, default.placeholder, true, false⟩
    default.validate = .ok () ∧ coordinate.isDomain = false ∧ coordinate.localPath.isAbsolute = false ∧
      (∃ location : String,
        (default.placeholder.localize (Model.bundleRoot (Model.rootDescriptorPath output))
            (default.placeholder.parameterize library)).location = some location ∧
          location = "out\uFFFD/repository/g/lib/1/lib-1.jar" ∧
          ¬(Path.mk location).SameComponents (repository.join coordinate.localPath)) ∧
      provided.coordinate.isDomain = false ∧ provided ∈ application.allArtifacts.artifacts ∧
        ∀ step ∈ installer.steps application,
          step.target? ≠ some (installer.payloadPath provided.coordinate) := by
  intro coordinate library provided output repository application installer
  refine ⟨by decide +kernel, by decide, by decide +kernel, ?_, by decide, by decide +kernel,
    by decide +kernel⟩
  exact ⟨_, by decide +kernel, rfl, by decide +kernel⟩

end AppBundle
