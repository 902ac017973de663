import Mathlib.Data.List.TakeWhile
import AppBundle.Proofs.FileSystem.PathText
import AppBundle.Proofs.Installation.Companions
import AppBundle.Proofs.Installation.Containment
import AppBundle.Proofs.Installation.Promises
import AppBundle.Proofs.Packaging.Stages

namespace AppBundle

/-! Bundles that are read again. Writing names every place relative to a placeholder, reading puts the
placeholder into the root of the bundle, and installing puts payloads into a directory of a fixed name.
A location that is read names its payload exactly where the placeholder names that directory.
-/

variable {files after : FileSystem} {output : Path} {artifact : Artifact} {coordinate : Coordinate}
  {placeholder : Placeholder} {model : Model} {application : Application}

theorem Path.stepsOf_suffix {base next : Path} (relative : next.isAbsolute = false) :
    stepsOf next.text <:+ (base.join next).components := by
  rw [components_eq, stepsOf_join relative, ← List.append_assoc]
  exact List.suffix_append _ _

theorem Model.bundleRoot_rootDescriptorPath (bundle : Path) :
    bundleRoot (rootDescriptorPath bundle) = bundle.trimmed := by
  have first : Path.IsName "META-INF" := ⟨by decide, by decide⟩
  have second : Path.IsName "mule-artifact" := ⟨by decide, by decide⟩
  have directory : bundle.join metadataDirectory =
      (bundle.join ⟨"META-INF"⟩).join ⟨"mule-artifact"⟩ := by
    rw [Path.join_assoc]
    exact congrArg bundle.join (by decide)
  have parent : (rootDescriptorPath bundle).parent? = some (bundle.join metadataDirectory) := by
    rw [rootDescriptorPath, Path.parent?_join isName_descriptorName, directory,
      Path.trimmed_join second]
  have inside : (bundle.join metadataDirectory).endsWith metadataDirectory = true := by
    rw [Path.endsWith, List.isSuffixOf_iff_suffix]
    have steps : metadataDirectory.components = Path.stepsOf metadataDirectory.text := by decide
    exact steps ▸ Path.stepsOf_suffix (by decide)
  rw [bundleRoot, parent]
  dsimp only [Option.getD_some]
  rw [if_pos inside, directory, Path.parent?_join second, Path.trimmed_join first]
  dsimp only [Option.bind_some]
  rw [Path.parent?_join first, Option.getD_some]

namespace Placeholder

theorem relative?_locationFor :
    placeholder.relative? (placeholder.locationFor coordinate) = some coordinate.repositoryPath := by
  have behind : placeholder.lead.toList.isPrefixOf? (placeholder.locationFor coordinate).toList =
      some coordinate.repositoryPath.toList := by
    rw [List.isPrefixOf?_eq_some_iff_append_eq, locationFor, String.toList_append]
  rw [relative?, behind, Option.map_some, String.ofList_toList]

/-- The file path that a portable location of a coordinate gets in a bundle. -/
def placeOf (placeholder : Placeholder) (bundleRoot : Path) (coordinate : Coordinate) : Path :=
  placeholder.resolve bundleRoot (placeholder.locationFor coordinate)

theorem placeOf_eq_foldl {bundleRoot : Path} :
    placeholder.placeOf bundleRoot coordinate =
      (Text.parts '/' coordinate.repositoryPath).foldl (fun path segment => path.join ⟨segment⟩)
        (bundleRoot.join ⟨placeholder.name⟩) := by
  rw [placeOf, resolve, relative?_locationFor]

/-- The places in a bundle are joined from raw texts, piece by piece. -/
theorem placeOf_eq_foldl_parts {bundleRoot : Path} :
    placeholder.placeOf bundleRoot coordinate =
      ((RawText.ofText coordinate.repositoryPath).parts Path.slash).foldl
        (fun path segment => path.join ⟨segment⟩) (bundleRoot.join ⟨placeholder.name⟩) := by
  rw [placeOf_eq_foldl, RawText.parts_ofText, List.foldl_map]

theorem components_placeOf_root (named : placeholder.name ≠ "") (bundleRoot : Path) :
    (placeholder.placeOf bundleRoot coordinate).components =
      (bundleRoot.join ⟨placeholder.name⟩).components ++ Path.stepsOf coordinate.repositoryPath := by
  have clean : ∀ piece ∈ (RawText.ofText coordinate.repositoryPath).parts Path.slash,
      Path.slash ∉ piece.bytes :=
    fun piece => RawText.separator_not_mem_parts
  rw [placeOf_eq_foldl_parts,
    Path.components_foldl_join (Path.nonempty_join (Path.nonempty_mk named) _) clean]
  rfl

theorem components_placeOf (named : placeholder.name ≠ "") :
    (placeholder.placeOf output.trimmed coordinate).components =
      (output.join ⟨placeholder.name⟩).components ++ Path.stepsOf coordinate.repositoryPath := by
  have root : (output.trimmed.join ⟨placeholder.name⟩).components =
      (output.join ⟨placeholder.name⟩).components := Path.trimmed_join_congr
  rw [components_placeOf_root named, root]

theorem isText_placeOf {bundleRoot : Path} (isText : bundleRoot.isText = true) :
    (placeholder.placeOf bundleRoot coordinate).isText = true := by
  rw [placeOf_eq_foldl]
  have start := Path.isText_join_of isText (Path.isText_mk placeholder.name)
  generalize bundleRoot.join ⟨placeholder.name⟩ = path at start
  induction Text.parts '/' coordinate.repositoryPath generalizing path with
  | nil => exact start
  | cons piece rest ih => exact ih _ (Path.isText_join_of start (Path.isText_mk piece))

/-- An artifact as a reader of the bundle has it. -/
def relocate (placeholder : Placeholder) (bundleRoot : Path) (artifact : Artifact) : Artifact :=
  placeholder.localize bundleRoot (placeholder.parameterize artifact)

theorem location_relocate_of_not_domain {bundleRoot : Path}
    (notDomain : artifact.coordinate.isDomain = false) :
    (placeholder.relocate bundleRoot artifact).location =
      some (placeholder.placeOf bundleRoot artifact.coordinate).shown := by
  simp [relocate, parameterize, localize, notDomain, placeOf]

theorem location_relocate {bundleRoot : Path} (isPackaged : artifact.isPackaged = true) :
    (placeholder.relocate bundleRoot artifact).location =
      some (placeholder.placeOf bundleRoot artifact.coordinate).shown := by
  have notDomain : artifact.coordinate.isDomain = false := by
    simp only [Artifact.isPackaged, Bool.and_eq_true, Bool.not_eq_true'] at isPackaged
    exact isPackaged.2
  exact location_relocate_of_not_domain notDomain

end Placeholder

theorem DependencySet.mem_map {set : DependencySet} {present : Presentation}
    (faithful : present.Faithful) :
    artifact ∈ (set.map present).artifacts ↔ ∃ shown ∈ set.artifacts, present shown = artifact := by
  rw [map, mem_ofList (distinct_shown faithful), List.mem_map]

theorem Model.mem_relocated {bundleRoot : Path} :
    artifact ∈ (placeholder.localizeModel bundleRoot
        (model.presented placeholder.parameterize)).dependencies.artifacts ↔
      ∃ dependency ∈ model.dependencies.artifacts,
        placeholder.relocate bundleRoot dependency = artifact := by
  have written (portable : Artifact) :
      portable ∈ (model.presented placeholder.parameterize).dependencies.artifacts ↔
        ∃ dependency ∈ model.dependencies.artifacts, placeholder.parameterize dependency = portable :=
    DependencySet.mem_map placeholder.faithful_parameterize
  refine (DependencySet.mem_map (placeholder.faithful_localize bundleRoot)).trans ?_
  simp only [written]
  constructor
  · intro given
    obtain ⟨_, ⟨dependency, member, rfl⟩, same⟩ := given
    exact ⟨dependency, member, same⟩
  · intro given
    obtain ⟨dependency, member, same⟩ := given
    exact ⟨_, ⟨dependency, member, rfl⟩, same⟩

namespace Coordinate

theorem raw_repositoryPath : RawText.ofText coordinate.repositoryPath =
    RawText.ofText coordinate.groupPath ++ "/" ++ coordinate.name ++ "/" ++ coordinate.version ++ "/" ++
      coordinate.fileName := by
  simp only [repositoryPath, RawText.ofText_append]

theorem getLast?_parts_localPath :
    (coordinate.localPath.text.parts Path.slash).getLast? =
      ((RawText.ofText coordinate.repositoryPath).parts Path.slash).getLast? := by
  rw [localPath, Path.getLast?_parts_join, raw_repositoryPath, Path.getLast?_parts_separated]

/-- Written with single separators or joined, the names on the way to a payload are the same. -/
theorem stepsOf_repositoryPath (relative : coordinate.localPath.isAbsolute = false) :
    Path.stepsOf coordinate.repositoryPath = Path.stepsOf coordinate.localPath.text := by
  obtain ⟨directory, file⟩ := Path.relative_of_join relative
  obtain ⟨named, version⟩ := Path.relative_of_join directory
  obtain ⟨_, name⟩ := Path.relative_of_join named
  rw [localPath, Path.stepsOf_join file, Coordinate.directory, Path.stepsOf_join version,
    Path.stepsOf_join name, raw_repositoryPath, Path.stepsOf_separated, Path.stepsOf_separated,
    Path.stepsOf_separated]

theorem Plain.isRelative_localPath (plain : coordinate.Plain) :
    coordinate.localPath.isAbsolute = false := by
  have below : coordinate.localPath.StaysBelow := by
    rw [Path.staysBelow_iff]
    intro directory
    exact ⟨_, by simp, plain.placeFrom_file plain.isName_fileName⟩
  exact below.1

end Coordinate

theorem Application.packaged_of_root (member : artifact ∈ application.root.dependencies.artifacts)
    (isPackaged : artifact.isPackaged = true) : artifact ∈ Installer.packaged application := by
  refine List.mem_filter.mpr ⟨DependencySet.mem_iff_find?.mpr ?_, isPackaged⟩
  rw [find?_allArtifacts, standing?, DependencySet.mem_iff_find?.mp member]
  rfl

theorem Configuration.placeholder_named {configuration : Configuration}
    (valid : configuration.validate = .ok ()) : configuration.placeholder.name ≠ "" := by
  unfold validate at valid
  split at valid
  · cases valid
  · split at valid
    · cases valid
    · next named =>
        intro empty
        refine named (List.all_eq_true.mpr fun char member => ?_)
        have dropped : configuration.repositoryPlaceholder.toList.reverse.dropWhile (· = '/') = [] := by
          simpa [placeholder, Placeholder.ofText, Text.trimEndWhile] using empty
        exact List.dropWhile_eq_nil_iff.mp dropped char (List.mem_reverse.mpr member)

namespace Packager

variable {packager : Packager} {report : Report}

/-- The place that is read is the payload's where the placeholder leads to the repository. -/
theorem placeOf_same_iff (named : placeholder.name ≠ "")
    (relative : coordinate.localPath.isAbsolute = false) :
    (placeholder.placeOf output.trimmed coordinate).SameComponents
        ((packager.installer output).payloadPath coordinate) ↔
      (output.join ⟨placeholder.name⟩).SameComponents (output.join repositoryName) := by
  have nonempty : (packager.installer output).repository.text ≠ "" :=
    Path.nonempty_join (by decide) output
  rw [Path.SameComponents, Placeholder.components_placeOf named, Installer.payloadPath_eq,
    Path.components_join nonempty relative, Coordinate.stepsOf_repositoryPath relative,
    List.append_left_inj]
  rfl

theorem isText_of_payloadPath (relative : coordinate.localPath.isAbsolute = false)
    (isText : ((packager.installer output).payloadPath coordinate).isText = true) :
    output.isText = true := by
  rw [Installer.payloadPath_eq, Path.isText_join relative] at isText
  exact ((Path.isText_join (by decide)).mp isText.1).1

theorem getLast?_parts_placeOf {bundleRoot : Path} :
    ((placeholder.placeOf bundleRoot coordinate).text.parts Path.slash).getLast? =
      (((packager.installer output).payloadPath coordinate).text.parts Path.slash).getLast? := by
  have clean : ∀ piece ∈ (RawText.ofText coordinate.repositoryPath).parts Path.slash,
      Path.slash ∉ piece.bytes :=
    fun piece => RawText.separator_not_mem_parts
  rw [Placeholder.placeOf_eq_foldl_parts, Path.getLast?_parts_foldl_join (Path.parts_ne_nil _) clean,
    Installer.payloadPath_eq, Path.getLast?_parts_join, Coordinate.getLast?_parts_localPath]

theorem mk_shown_placeOf (isText : output.isText = true) :
    Path.mk (placeholder.placeOf output.trimmed coordinate).shown =
      placeholder.placeOf output.trimmed coordinate :=
  Path.mk_shown (Placeholder.isText_placeOf ((Path.isText_congr Path.components_trimmed).trans isText))

theorem isText_of_location (relative : coordinate.localPath.isAbsolute = false)
    (same : (Path.mk (placeholder.placeOf output.trimmed coordinate).shown).SameComponents
      ((packager.installer output).payloadPath coordinate)) : output.isText = true :=
  isText_of_payloadPath relative ((Path.isText_congr same).symm.trans (Path.isText_mk _))

/-- What is read is the place of the payload only if nothing had to be repaired. -/
theorem location_same_iff (named : placeholder.name ≠ "")
    (relative : coordinate.localPath.isAbsolute = false) :
    (Path.mk (placeholder.placeOf output.trimmed coordinate).shown).SameComponents
        ((packager.installer output).payloadPath coordinate) ↔
      output.isText = true ∧
        (output.join ⟨placeholder.name⟩).SameComponents (output.join repositoryName) := by
  constructor
  · intro same
    have isText := isText_of_location relative same
    rw [mk_shown_placeOf isText] at same
    exact ⟨isText, (placeOf_same_iff named relative).mp same⟩
  · rintro ⟨isText, same⟩
    rw [mk_shown_placeOf isText]
    exact (placeOf_same_iff named relative).mpr same

theorem read?_location {content : ByteArray} (relative : coordinate.localPath.isAbsolute = false)
    (same : (Path.mk (placeholder.placeOf output.trimmed coordinate).shown).SameComponents
      ((packager.installer output).payloadPath coordinate))
    (admitted : FileSystem.admits ⟨(placeholder.placeOf output.trimmed coordinate).shown⟩ = true)
    (there : files.read? ((packager.installer output).payloadPath coordinate) = some content) :
    files.read? ⟨(placeholder.placeOf output.trimmed coordinate).shown⟩ = some content := by
  have place : Path.mk (placeholder.placeOf output.trimmed coordinate).shown =
      placeholder.placeOf output.trimmed coordinate :=
    mk_shown_placeOf (isText_of_location relative same)
  rw [place] at same admitted ⊢
  exact FileSystem.read?_of_components same getLast?_parts_placeOf admitted there

theorem describe_ok {described : FileSystem}
    (ran : packager.describe output application files = .complete described) :
    files.Grows described ∧
      described.read? (Model.rootDescriptorPath output) =
        some (application.root.descriptor packager.configuration.placeholder.parameterize
          packager.configuration.prettyPrint).toUTF8 := by
  have grows : files.Grows described := Step.runAll_grows ran
  unfold describe Model.descriptorSteps at ran
  obtain ⟨made, _, wrote⟩ := Step.runAll_append.mp ran
  obtain ⟨_, written, done⟩ := Step.runAll_cons.mp wrote
  have read := (Step.run_write written).read?
  cases done
  exact ⟨grows, read⟩

/-- What writing a bundle successfully does: the descriptor first, then the installation. -/
theorem WritesTo.ok (writes : packager.WritesTo output application files (after, .ok report)) :
    ∃ described reported,
      packager.describe output application files = .complete described ∧
        (packager.installer output).InstallsTo application packager.configuration.concurrency
          described (after, .ok reported) ∧
          report.descriptor = Model.rootDescriptorPath output := by
  obtain ⟨described, failure, ran, answered⟩ := writes
  cases failure with
  | some failure => cases (Prod.mk.inj answered).2
  | none =>
      obtain ⟨_, reported, installed, same⟩ := answered
      obtain ⟨rfl, mapped⟩ := Prod.mk.inj same
      obtain ⟨listed, rfl, made⟩ := map_ok.mp mapped.symm
      have path : report.descriptor = Model.rootDescriptorPath output := by
        rw [← made]
        rfl
      exact ⟨described, listed, ran, installed, path⟩

theorem PackagesTo.ok (packages : packager.PackagesTo output files (after, .ok report)) :
    ∃ application, packager.assemble files = .ok application ∧
      packager.WritesTo output application files (after, .ok report) := by
  obtain ⟨assembled, assembles, writes⟩ := packages
  cases assembled with
  | error failure => cases writes
  | ok application => exact ⟨application, assembles.assemble, writes⟩

/-- No file of a repository is the descriptor beside it. -/
theorem descriptor_not_mem_places
    (plain : ∀ artifact ∈ Installer.packaged application, artifact.coordinate.Plain)
    (base : Location) :
    (Model.rootDescriptorPath output).placeFrom base ∉
      (packager.installer output).places application base := by
  intro listed
  obtain ⟨step, member, place⟩ := Installer.mem_places.mp listed
  obtain ⟨path, writes, leads⟩ := Option.map_eq_some_iff.mp place
  obtain ⟨file, inside, rfl⟩ := Installer.output_of_mem member writes
  have stays := Installer.staysBelow_of_plain plain inside
  obtain ⟨names, _, below⟩ := Path.staysBelow_iff_join.mp stays (output.join repositoryName) base
  have repository : (output.join repositoryName).placeFrom base =
      output.placeFrom base ++ [("repository" : RawText)] := by
    rw [Path.placeFrom_join]
    exact Path.IsName.placeFrom ⟨by decide, by decide⟩
  have descriptor : (Model.rootDescriptorPath output).placeFrom base =
      output.placeFrom base ++
        [("META-INF" : RawText), "mule-artifact", Model.descriptorName] := by
    rw [Model.rootDescriptorPath, Path.placeFrom_join, Path.placeFrom_join,
      Model.isName_descriptorName.placeFrom, Path.placeFrom_down (by decide), List.append_assoc]
    rfl
  -- the two part right below the output
  have same := below.symm.trans leads
  rw [repository, descriptor, List.append_assoc] at same
  have names := List.append_cancel_left same
  exact absurd (List.cons.inj names).1 (by decide)

namespace WritesTo

variable (writes : packager.WritesTo output application files (after, .ok report))

include writes

/-- Unless an artifact is written over it, the root's descriptor is read back. -/
theorem loadNested_descriptor (kept : files.destination (Model.rootDescriptorPath output) ∉
      (packager.installer output).places application files.workingDirectory) :
    loadNested after packager.configuration.placeholder (Model.rootDescriptorPath output) =
      .ok (packager.configuration.placeholder.localizeModel output.trimmed
        (application.root.presented packager.configuration.placeholder.parameterize)) := by
  obtain ⟨described, reported, ran, installed, _⟩ := writes.ok
  obtain ⟨grows, read⟩ := describe_ok ran
  obtain ⟨made, order, completes, _⟩ := installed.completes
  have elsewhere : described.destination (Model.rootDescriptorPath output) ∉
      (packager.installer output).places application described.workingDirectory := by
    rw [grows.destination, grows.workingDirectory]
    exact kept
  have still := completes.read_untouched elsewhere read
  rw [loadNested, Model.load_read still, Model.bundleRoot_rootDescriptorPath,
    Model.ofDescriptor_shown (Placeholder.showsLocations _ application.root) _]
  rfl

theorem payload_read (member : artifact ∈ application.root.dependencies.artifacts)
    (isPackaged : artifact.isPackaged = true) :
    ∃ content,
      after.read? ((packager.installer output).payloadPath artifact.coordinate) = some content := by
  obtain ⟨described, reported, _, installed, _⟩ := writes.ok
  obtain ⟨made, order, completes, _⟩ := installed.completes
  obtain ⟨_, _, copied⟩ := completes.copied (Application.packaged_of_root member isPackaged)
  exact Option.isSome_iff_exists.mp (completes.written copied rfl).2

end WritesTo

/-- A packaged bundle, read again with the placeholder that it was written with. Unless an artifact is
written over it, the root's descriptor gives back the root's dependencies, each at a place in the
bundle. That place is the one of the dependency's payload exactly where the placeholder leads from the
output to the repository, and then what is read there is the payload. -/
theorem package_relocated (valid : packager.configuration.validate = .ok ())
    (packages : packager.PackagesTo output files (after, .ok report)) :
    ∃ application, packager.assemble files = .ok application ∧
      let placeholder := packager.configuration.placeholder
      let relocated := placeholder.relocate (Model.bundleRoot report.descriptor)
      let kept := files.destination report.descriptor ∉
        (packager.installer output).places application files.workingDirectory
      report.descriptor = Model.rootDescriptorPath output ∧
      (kept → ∃ model, loadNested after placeholder report.descriptor = .ok model ∧
        ∀ artifact, artifact ∈ model.dependencies.artifacts ↔
          ∃ dependency ∈ application.root.dependencies.artifacts,
            relocated dependency = artifact) ∧
      ((∀ artifact ∈ Installer.packaged application, artifact.coordinate.Plain) → kept ∧
        ∀ artifact ∈ Installer.packaged application,
          artifact.coordinate.localPath.isAbsolute = false) ∧
      ∀ dependency ∈ application.root.dependencies.artifacts, dependency.isPackaged = true →
        let payload := (packager.installer output).payloadPath dependency.coordinate
        ∃ (location : String) (content : ByteArray),
          (relocated dependency).location = some location ∧
          after.read? payload = some content ∧
            (dependency.coordinate.localPath.isAbsolute = false →
              let place : Path := ⟨location⟩
              (place.SameComponents payload ↔ output.isText = true ∧
                (output.join ⟨placeholder.name⟩).SameComponents (output.join repositoryName)) ∧
              (place.SameComponents payload → FileSystem.admits place = true →
                after.read? place = some content)) := by
  obtain ⟨application, assembled, writes⟩ := packages.ok
  obtain ⟨_, _, _, _, written⟩ := writes.ok
  have root : Model.bundleRoot report.descriptor = output.trimmed := by
    rw [written, Model.bundleRoot_rootDescriptorPath]
  refine ⟨application, assembled, ?_⟩
  intro placeholder relocated kept
  refine ⟨written, fun isKept => ?_, fun plain => ⟨?_, fun artifact member => ?_⟩,
    fun dependency member isPackaged => ?_⟩
  · simp only [kept, written] at isKept
    simp only [relocated, written, Model.bundleRoot_rootDescriptorPath]
    exact ⟨_, writes.loadNested_descriptor isKept, fun artifact => Model.mem_relocated⟩
  · simp only [kept, written]
    exact descriptor_not_mem_places plain files.workingDirectory
  · exact (plain artifact member).isRelative_localPath
  · obtain ⟨content, there⟩ := writes.payload_read member isPackaged
    have named := Configuration.placeholder_named valid
    have located : (relocated dependency).location =
        some (placeholder.placeOf output.trimmed dependency.coordinate).shown := by
      rw [← root]
      exact Placeholder.location_relocate isPackaged
    refine ⟨_, content, located, there, fun relative => ?_⟩
    exact ⟨location_same_iff named relative, fun same admitted =>
      read?_location relative same admitted there⟩

/-- Packaging one library with the placeholder of every default. -/
theorem package_relocated_default :
    let library : Artifact :=
      ⟨⟨"g", "lib", "1", "jar", none, none⟩, some "/lib.jar", false, .empty, .empty⟩
    let owner : Coordinate := ⟨"g", "app", "1", "jar", none, none⟩
    let snapshot : Snapshot := ⟨owner, [library.coordinate], .ofList [(library, [])]⟩
    let packager : Packager := ⟨snapshot.resolver, { Configuration.default with introspect := false }⟩
    let files := FileSystem.empty.place ⟨"/lib.jar"⟩ ⟨#[1]⟩
    packager.configuration.validate = .ok () ∧
      ∃ after report, packager.PackagesTo ⟨"out"⟩ files (after, .ok report) ∧
        ∃ (model : Model) (artifact : Artifact) (location : String),
          loadNested after packager.configuration.placeholder report.descriptor = .ok model ∧
            artifact ∈ model.dependencies.artifacts ∧ artifact.location = some location ∧
              (Path.mk location).SameComponents ⟨"out/repository/g/lib/1/lib-1.jar"⟩ := by
  intro library owner snapshot packager files
  have valid : packager.configuration.validate = .ok () := by decide +kernel
  have assembled : packager.assemble files =
      .ok (.ofRoot (.ofDependencies owner (.ofList [library]))) := by
    decide +kernel
  have succeeds : (packager.package ⟨"out"⟩ files).2.isOk = true := by decide +kernel
  obtain ⟨report, packages⟩ := package_succeeds succeeds
  obtain ⟨application, again, relocated⟩ := package_relocated valid packages
  obtain rfl := Except.ok.inj (assembled.symm.trans again)
  obtain ⟨_, read, plain, places⟩ := relocated
  obtain ⟨kept, relative⟩ := plain (by decide +kernel)
  obtain ⟨model, loaded, same⟩ := read kept
  obtain ⟨location, _, located, _, leads⟩ := places library (by decide +kernel) (by decide +kernel)
  have path : (packager.installer ⟨"out"⟩).payloadPath library.coordinate =
      ⟨"out/repository/g/lib/1/lib-1.jar"⟩ := by
    decide +kernel
  have payload := (leads (by decide +kernel)).1.mpr ⟨Path.isText_mk "out", by decide +kernel⟩
  rw [path] at payload
  exact ⟨valid, _, report, packages, model, _, location, loaded,
    (same _).mpr ⟨library, by decide +kernel, rfl⟩, located, payload⟩

/-- With another placeholder the descriptor is read, and names places where nothing was written. -/
theorem package_misplaced :
    let library : Artifact :=
      ⟨⟨"g", "lib", "1", "jar", none, none⟩, some "/lib.jar", false, .empty, .empty⟩
    let owner : Coordinate := ⟨"g", "app", "1", "jar", none, none⟩
    let snapshot : Snapshot := ⟨owner, [library.coordinate], .ofList [(library, [])]⟩
    let configuration : Configuration :=
      { Configuration.default with introspect := false, repositoryPlaceholder := "libs" }
    let packager : Packager := ⟨snapshot.resolver, configuration⟩
    let files := FileSystem.empty.place ⟨"/lib.jar"⟩ ⟨#[1]⟩
    packager.configuration.validate = .ok () ∧
      ∃ after report, packager.PackagesTo ⟨"out"⟩ files (after, .ok report) ∧
        ∃ model artifact,
          loadNested after packager.configuration.placeholder report.descriptor = .ok model ∧
            artifact ∈ model.dependencies.artifacts ∧ artifact.isPackaged = true ∧
              artifact.location = some "out/libs/g/lib/1/lib-1.jar" ∧
                after.read? ⟨"out/libs/g/lib/1/lib-1.jar"⟩ = none ∧
                  after.read? ⟨"out/repository/g/lib/1/lib-1.jar"⟩ = some ⟨#[1]⟩ := by
  intro library owner snapshot configuration packager files
  have assembled : packager.assemble files =
      .ok (.ofRoot (.ofDependencies owner (.ofList [library]))) := by
    decide +kernel
  have succeeds : (packager.package ⟨"out"⟩ files).2.isOk = true := by decide +kernel
  obtain ⟨report, packages⟩ := package_succeeds succeeds
  obtain ⟨application, again, writes⟩ := packages.ok
  obtain rfl := Except.ok.inj (assembled.symm.trans again)
  obtain ⟨_, _, _, _, written⟩ := writes.ok
  have loaded := writes.loadNested_descriptor (descriptor_not_mem_places (by decide +kernel) _)
  rw [← written] at loaded
  exact ⟨by decide +kernel, _, report, packages, _,
    packager.configuration.placeholder.relocate (Path.trimmed ⟨"out"⟩) library, loaded,
    Model.mem_relocated.mpr ⟨library, by decide +kernel, rfl⟩, by decide +kernel, by decide +kernel,
    by decide +kernel, by decide +kernel⟩

end Packager

end AppBundle
