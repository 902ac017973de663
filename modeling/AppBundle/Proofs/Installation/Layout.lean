import AppBundle.Proofs.CoordinateText
import AppBundle.Proofs.Installation.Plan

namespace AppBundle

/-! Where the files of an installation lie. A coordinate whose parts are plain names has the directory
of its group, name and version for itself, and in there the files of different artifacts have
different names, companions apart.
-/

namespace Text

/-- Parts are between the new separators where they were between the old ones. -/
theorem parts_replaceChar {old new : Char} {text : String} (clean : new ∉ text.toList) :
    parts new (replaceChar old new text) = parts old text := by
  have split (chars : List Char) (clean : new ∉ chars) :
      (chars.map fun char => if char = old then new else char).splitOn new =
        chars.splitOn old := by
    induction chars with
    | nil => rw [List.map_nil, List.splitOn_nil, List.splitOn_nil]
    | cons char rest ih =>
        rw [List.mem_cons, not_or] at clean
        rw [List.map_cons, List.splitOn_cons_eq_if_modifyHead, List.splitOn_cons_eq_if_modifyHead,
          ih clean.2]
        by_cases same : char = old
        · simp [same]
        · simp [same, Ne.symm clean.1]
  rw [parts, replaceChar, String.toList_ofList, split _ clean, parts]

/-- What stands in front of the first separator can be told from the whole. -/
theorem eq_of_same_front {separator : Char} {left right rest rest' : List Char}
    (clean : separator ∉ left) (clean' : separator ∉ right)
    (same : left ++ separator :: rest = right ++ separator :: rest') : left = right := by
  have front {chars behind : List Char} (clean : separator ∉ chars) :
      (chars ++ separator :: behind).takeWhile (· ≠ separator) = chars := by
    rw [List.takeWhile_append_of_pos]
    · simp
    · intro char member
      have different : char ≠ separator := fun same => clean (same ▸ member)
      simpa using different
  have fronts := congrArg (List.takeWhile (· ≠ separator)) same
  rwa [front clean, front clean'] at fronts

theorem parts_injective {separator : Char} {left right : String}
    (same : parts separator left = parts separator right) : left = right := by
  rw [← joined_parts separator left, same, joined_parts]

end Text

namespace Coordinate

variable {coordinate left right : Coordinate} {base : Location}

/-- Every part is a name of its own in a repository, the group as many as it has between its dots. -/
structure Plain (coordinate : Coordinate) : Prop where
  group : '/' ∉ coordinate.group.toList ∧ "" ∉ Text.parts '.' coordinate.group
  name : Path.IsName coordinate.name
  version : Path.IsName coordinate.version
  kind : '/' ∉ coordinate.kind.toList
  classifier : ∀ classifier ∈ coordinate.classifier,
    '/' ∉ classifier.toList ∧ '.' ∉ classifier.toList

instance : Decidable coordinate.Plain :=
  decidable_of_iff (_ ∧ (_ ∧ _) ∧ (_ ∧ _) ∧ _ ∧ _)
    ⟨fun ⟨group, name, version, kind, classifier⟩ =>
        ⟨group, ⟨name.1, name.2⟩, ⟨version.1, version.2⟩, kind, classifier⟩,
      fun plain => ⟨plain.group, ⟨plain.name.1, plain.name.2⟩, ⟨plain.version.1, plain.version.2⟩,
        plain.kind, plain.classifier⟩⟩

/-- The names from a repository down to the files of a coordinate. -/
def directoryNames (coordinate : Coordinate) : Location :=
  (Text.parts '.' coordinate.group ++ [coordinate.name, coordinate.version]).map RawText.ofText

theorem placeFrom_groupPath (plain : coordinate.Plain) :
    (Path.mk coordinate.groupPath).placeFrom base =
      base ++ (Text.parts '.' coordinate.group).map RawText.ofText := by
  have parts : (RawText.ofText coordinate.groupPath).parts Path.slash =
      (Text.parts '.' coordinate.group).map RawText.ofText := by
    rw [RawText.parts_ofText]
    exact congrArg (List.map RawText.ofText) (Text.parts_replaceChar plain.group.1)
  rw [Path.placeFrom_down, parts]
  rw [parts, List.forall_mem_map]
  intro piece member
  have dotless := Text.separator_not_mem_parts member
  simp only [ne_eq, RawText.ofText_inj]
  refine ⟨fun empty => plain.group.2 (empty ▸ member), fun dot => ?_, fun dots => ?_⟩
  · simp [dot] at dotless
  · simp [dots] at dotless

theorem Plain.placeFrom_directory (plain : coordinate.Plain) :
    coordinate.directory.placeFrom base = base ++ coordinate.directoryNames := by
  rw [directory, Path.placeFrom_join, Path.placeFrom_join, placeFrom_groupPath plain,
    plain.name.placeFrom, plain.version.placeFrom, directoryNames]
  simp

theorem Plain.placeFrom_file (plain : coordinate.Plain) {text : String} (name : Path.IsName text) :
    (coordinate.directory.join ⟨text⟩).placeFrom base =
      base ++ (coordinate.directoryNames ++ [RawText.ofText text]) := by
  rw [Path.placeFrom_join, plain.placeFrom_directory, name.placeFrom, List.append_assoc]

theorem eq_of_directoryNames (same : left.directoryNames = right.directoryNames) :
    left.group = right.group ∧ left.name = right.name ∧ left.version = right.version := by
  obtain ⟨groups, names⟩ :=
    List.append_inj' (List.map_injective_iff.mpr RawText.ofText_injective same) rfl
  simp only [List.cons.injEq, and_true] at names
  exact ⟨Text.parts_injective groups, names⟩

/-- What a file name adds to the name and version. -/
def suffix (coordinate : Coordinate) : String :=
  match coordinate.classifier with
  | none => "." ++ coordinate.kind
  | some classifier => "-" ++ classifier ++ "." ++ coordinate.kind

theorem fileName_eq :
    coordinate.fileName = coordinate.name ++ "-" ++ coordinate.version ++ coordinate.suffix := by
  unfold fileName suffix
  cases coordinate.classifier with
  | none => simp [String.append_assoc]
  | some classifier => simp [String.append_assoc]

theorem nonempty_localPath : coordinate.localPath.text ≠ "" := by
  refine Path.nonempty_join ?_ _
  rw [fileName_eq]
  simp

/-- A file name that goes on as another one does has its classifier. -/
theorem classifier_of_suffix (plain : left.Plain) (plain' : right.Plain) {more : String}
    (same : left.suffix ++ more = right.suffix) : left.classifier = right.classifier := by
  have chars := congrArg String.toList same
  unfold suffix at chars
  cases here : left.classifier with
  | none =>
      cases there : right.classifier with
      | none => rfl
      | some classifier => simp [here, there] at chars
  | some classifier =>
      cases there : right.classifier with
      | none => simp [here, there] at chars
      | some other =>
          simp only [here, there, String.toList_append, List.append_assoc] at chars
          have rest := List.append_cancel_left chars
          have equal := Text.eq_of_same_front (plain.classifier classifier here).2
            (plain'.classifier other there).2 rest
          rw [String.toList_injective equal]

theorem classifier_of_fileName (plain : left.Plain) (plain' : right.Plain) {more : String}
    (name : left.name = right.name) (version : left.version = right.version)
    (same : left.fileName ++ more = right.fileName) : left.classifier = right.classifier := by
  rw [fileName_eq, fileName_eq, name, version, String.append_assoc] at same
  exact classifier_of_suffix plain plain' (String.append_right_inj _ |>.mp same)

theorem isName_fileName (clean : ∀ piece ∈ coordinate.pieces, '/' ∉ piece.toList) :
    Path.IsName coordinate.fileName := by
  simp only [pieces, List.forall_mem_append, List.forall_mem_cons, Option.mem_toList] at clean
  obtain ⟨⟨_, name, version, kind, _⟩, classifier⟩ := clean
  refine Path.isName_of_dash ?_ ?_
  · unfold fileName
    cases here : coordinate.classifier with
    | none => simp [name, version, kind]
    | some text => simp [name, version, kind, classifier text here]
  · rw [fileName_eq]
    simp

theorem isName_pom (clean : ∀ piece ∈ coordinate.pieces, '/' ∉ piece.toList) :
    Path.IsName (Pom.fileName coordinate) := by
  have name : '/' ∉ coordinate.name.toList := clean _ (by simp [pieces])
  have version : '/' ∉ coordinate.version.toList := clean _ (by simp [pieces])
  refine Path.isName_of_dash ?_ ?_
  · simp [Pom.fileName, name, version]
  · simp [Pom.fileName]

theorem Plain.clean (plain : coordinate.Plain) : ∀ piece ∈ coordinate.pieces, '/' ∉ piece.toList := by
  simp only [pieces, List.forall_mem_append, List.forall_mem_cons, Option.mem_toList]
  exact ⟨⟨plain.group.1, RawText.slash_mem_ofText.not.mp plain.name.clean,
      RawText.slash_mem_ofText.not.mp plain.version.clean, plain.kind, List.forall_mem_nil _⟩,
    fun text here => (plain.classifier text here).1⟩

theorem Plain.isName_fileName (plain : coordinate.Plain) : Path.IsName coordinate.fileName :=
  Coordinate.isName_fileName plain.clean

end Coordinate

theorem Pom.last_fileName {coordinate : Coordinate} :
    (Pom.fileName coordinate).toList.getLast? = some 'm' := by
  rw [Pom.fileName, String.toList_append, List.getLast?_append_of_ne_nil _ (by decide)]
  rfl

theorem Model.isName_descriptorName : Path.IsName Model.descriptorName :=
  Path.isName_of_dash (by decide) (by decide)

theorem Path.IsName.digest {text : String} (name : Path.IsName text) :
    Path.IsName (RawText.ofText (text ++ ".sha1")) := by
  have clean := RawText.slash_mem_ofText.not.mp name.clean
  refine ⟨by simp [clean], Path.down_of_long ?_⟩
  rw [RawText.ofText_append, RawText.size_append]
  exact Nat.lt_add_left _ (by decide)

theorem checksumPath_join {path : Path} (nonempty : path.text ≠ "") (base : Path) :
    checksumPath (base.join path) = base.join (checksumPath path) := by
  have absolute : (checksumPath path).isAbsolute = path.isAbsolute :=
    Path.isAbsolute_append nonempty ".sha1"
  by_cases rooted : path.isAbsolute = true
  · simp [Path.join, absolute, rooted]
  · rw [Bool.not_eq_true] at rooted
    rw [Path.join_relative rooted, Path.join_relative (absolute.trans rooted), checksumPath]
    simp [checksumPath, RawText.append_assoc]

theorem checksumPath_name {text : String} (name : Path.IsName text) (base : Path) :
    checksumPath (base.join ⟨text⟩) = base.join ⟨RawText.ofText (text ++ ".sha1")⟩ := by
  have nonempty : (Path.mk text).text ≠ "" := name.down.1
  rw [checksumPath_join nonempty, checksumPath, RawText.ofText_append]

namespace Installer

variable {installer : Installer} {application : Application} {artifact other : Artifact}
  {coordinate : Coordinate} {step : Step} {text : String} {base location : Location}

theorem place_in_directory (plain : coordinate.Plain) (name : Path.IsName text) :
    ((installer.directoryOf coordinate).join ⟨text⟩).placeFrom base =
      installer.repository.placeFrom base ++ (coordinate.directoryNames ++ [RawText.ofText text]) := by
  rw [directoryOf, Path.join_assoc, Path.placeFrom_join, plain.placeFrom_file name]

theorem isName_companionName (clean : ∀ piece ∈ coordinate.pieces, '/' ∉ piece.toList) :
    Path.IsName (companionName application coordinate) := by
  unfold companionName
  split
  · exact Model.isName_descriptorName
  · exact Coordinate.isName_pom clean

theorem isName_markerName : Path.IsName markerName :=
  ⟨by decide, by decide⟩

/-- The file that a step of an artifact writes, told from its place in a directory. -/
theorem file_of_place (plain : artifact.coordinate.Plain)
    (member : step ∈ installer.artifactSteps application artifact)
    (place : step.place? base =
      some (installer.repository.placeFrom base ++ (coordinate.directoryNames ++ [RawText.ofText text]))) :
    artifact.coordinate.directoryNames = coordinate.directoryNames ∧
      ((artifact.coordinate.fileName = text ∧ ∃ source, artifact.locationPath = .ok source ∧
          step = .copy artifact.coordinate source (installer.payloadPath artifact.coordinate)) ∨
        (artifact.coordinate.fileName ++ ".sha1" = text ∧
          step = .checksum (installer.payloadPath artifact.coordinate)) ∨
        (companionName application artifact.coordinate = text ∧
          step = installer.companionStep application artifact.coordinate)) := by
  obtain ⟨path, writes, leads⟩ := Option.map_eq_some_iff.mp place
  have payload := plain.isName_fileName
  have named {name : String} (isName : Path.IsName name)
      (same : path = (installer.directoryOf artifact.coordinate).join ⟨name⟩) :
      artifact.coordinate.directoryNames = coordinate.directoryNames ∧ name = text := by
    rw [same, place_in_directory plain isName] at leads
    obtain ⟨names, last⟩ := List.append_inj' (List.append_cancel_left leads) rfl
    exact ⟨names, RawText.ofText_inj.mp (List.singleton_inj.mp last)⟩
  rcases writes_of_mem member writes with ⟨source, located, rfl⟩ | ⟨_, rfl⟩ | rfl
  · cases writes
    obtain ⟨names, last⟩ := named payload rfl
    exact ⟨names, .inl ⟨last, source, located, rfl⟩⟩
  · cases writes
    obtain ⟨names, last⟩ := named payload.digest (checksumPath_name payload _)
    exact ⟨names, .inr (.inl ⟨last, rfl⟩)⟩
  · cases writes
    obtain ⟨names, last⟩ := named (isName_companionName plain.clean) rfl
    exact ⟨names, .inr (.inr ⟨last, rfl⟩)⟩

theorem eq_of_directory (member : artifact ∈ packaged application)
    (listed : other ∈ packaged application)
    (names : other.coordinate.directoryNames = artifact.coordinate.directoryNames)
    (classifier : other.coordinate.classifier = artifact.coordinate.classifier) :
    other = artifact := by
  obtain ⟨group, name, version⟩ := Coordinate.eq_of_directoryNames names
  refine eq_of_identity member listed ?_
  rw [Artifact.identity, Artifact.identity, Coordinate.identity, Coordinate.identity, group, name,
    version, classifier]

/-- No companion is named like the digest of a file. -/
theorem companionName_ne_digest : companionName application coordinate ≠ text ++ ".sha1" := by
  intro same
  have last : (companionName application coordinate).toList.getLast? = some '1' := by
    rw [same, String.toList_append, List.getLast?_append_of_ne_nil _ (by decide)]
    rfl
  unfold companionName at last
  split at last
  · contradiction
  · rw [Pom.last_fileName] at last
    contradiction

section Plain

variable (plain : ∀ artifact ∈ packaged application, artifact.coordinate.Plain)
  (member : artifact ∈ packaged application)

include plain member

/-- Nothing is written over a payload, unless a companion has its name. -/
theorem lasts_payload {source : Path} (located : artifact.locationPath = .ok source)
    (notPom : artifact.coordinate.fileName ≠ Pom.fileName artifact.coordinate)
    (notDescriptor : artifact.coordinate.fileName ≠ Model.descriptorName) :
    installer.Lasts application base
      (.copy artifact.coordinate source (installer.payloadPath artifact.coordinate)) := by
  have inside : installer.payloadStep artifact ∈ installer.artifactSteps application artifact :=
    List.mem_cons_of_mem _ (List.mem_cons_self ..)
  rw [payloadStep, located] at inside
  refine lasts_of_alone member inside rfl fun other listed step there place => ?_
  rw [payloadPath, place_in_directory (plain artifact member)
    (plain artifact member).isName_fileName] at place
  obtain ⟨names, file⟩ := file_of_place (plain other listed) there place
  obtain ⟨_, name, version⟩ := Coordinate.eq_of_directoryNames names
  rcases file with ⟨same, source', located', rfl⟩ | ⟨same, rfl⟩ | ⟨same, rfl⟩
  · have classifier := Coordinate.classifier_of_fileName (plain other listed)
      (plain artifact member) name version ((String.append_empty).trans same)
    obtain rfl := eq_of_directory member listed names classifier
    rw [located] at located'
    cases located'
    exact ⟨rfl, rfl⟩
  · have classifier := Coordinate.classifier_of_fileName (plain other listed)
      (plain artifact member) name version same
    obtain rfl := eq_of_directory member listed names classifier
    have lengths := congrArg String.length same
    rw [String.length_append] at lengths
    exact absurd lengths (Nat.ne_of_gt (Nat.lt_add_of_pos_right (by decide)))
  · unfold companionName at same
    split at same
    · exact absurd same.symm notDescriptor
    · rw [Pom.fileName, name, version] at same
      exact absurd same.symm notPom

/-- Nothing is written over the digest of a payload. -/
theorem lasts_digest (checksums : installer.checksums = true) :
    installer.Lasts application base
      (.checksum (installer.payloadPath artifact.coordinate)) := by
  have payload := (plain artifact member).isName_fileName
  have inside : .checksum (installer.payloadPath artifact.coordinate) ∈
      installer.artifactSteps application artifact := by
    simp [artifactSteps, checksumSteps, checksums]
  refine lasts_of_alone member inside rfl fun other listed step there place => ?_
  rw [payloadPath, checksumPath_name payload,
    place_in_directory (plain artifact member) payload.digest] at place
  obtain ⟨names, file⟩ := file_of_place (plain other listed) there place
  obtain ⟨_, name, version⟩ := Coordinate.eq_of_directoryNames names
  rcases file with ⟨same, _, _, rfl⟩ | ⟨same, rfl⟩ | ⟨same, rfl⟩
  · have classifier := Coordinate.classifier_of_fileName (plain artifact member)
      (plain other listed) name.symm version.symm same.symm
    obtain rfl := eq_of_directory member listed names classifier.symm
    have lengths := congrArg String.length same
    rw [String.length_append] at lengths
    exact absurd lengths (Nat.ne_of_lt (Nat.lt_add_of_pos_right (by decide)))
  · have fileNames := (String.append_left_inj ".sha1").mp same
    have classifier := Coordinate.classifier_of_fileName (plain other listed)
      (plain artifact member) name version ((String.append_empty).trans fileNames)
    obtain rfl := eq_of_directory member listed names classifier
    exact ⟨rfl, rfl⟩
  · exact absurd same companionName_ne_digest

/-- Nothing is written over a descriptor, unless another artifact of its directory has one or a
payload has its name. -/
theorem lasts_descriptor (nested : (companionModel? application artifact.coordinate).isSome = true)
    (only : ∀ other ∈ packaged application,
      other.coordinate.directoryNames = artifact.coordinate.directoryNames →
        (companionModel? application other.coordinate).isSome = true → other = artifact)
    (free : ∀ other ∈ packaged application,
      other.coordinate.directoryNames = artifact.coordinate.directoryNames →
        other.coordinate.fileName ≠ Model.descriptorName) :
    installer.Lasts application base
      (installer.companionStep application artifact.coordinate) := by
  have inside : installer.companionStep application artifact.coordinate ∈
      installer.artifactSteps application artifact := by
    obtain ⟨earlier, steps⟩ := installer.artifactSteps_eq application artifact
    rw [steps]
    exact List.mem_append_right _ (List.mem_singleton_self _)
  have descriptor {coordinate : Coordinate}
      (nested : (companionModel? application coordinate).isSome = true) :
      companionName application coordinate = Model.descriptorName := by
    obtain ⟨model, found⟩ := Option.isSome_iff_exists.mp nested
    rw [companionName, found]
  refine lasts_of_alone member inside rfl fun other listed step there place => ?_
  rw [companionPath, descriptor nested, place_in_directory (plain artifact member)
    Model.isName_descriptorName] at place
  obtain ⟨names, file⟩ := file_of_place (plain other listed) there place
  rcases file with ⟨same, _, _, rfl⟩ | ⟨same, rfl⟩ | ⟨same, rfl⟩
  · exact absurd same (free other listed names)
  · exact absurd ((descriptor nested).trans same.symm) companionName_ne_digest
  · cases model : companionModel? application other.coordinate with
    | some model =>
        obtain rfl := only other listed names (by rw [model]; rfl)
        exact ⟨rfl, rfl⟩
    | none =>
        rw [companionName, model] at same
        have last : some 'm' = Model.descriptorName.toList.getLast? :=
          Pom.last_fileName.symm.trans (congrArg (·.toList.getLast?) same)
        contradiction

end Plain

end Installer

end AppBundle
