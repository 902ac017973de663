import AppBundle.Proofs.Installation.Layout
import AppBundle.Proofs.Trimming

namespace AppBundle

/-! Installed payloads. A payload has the bytes that its artifact's location had before, and agrees
with the digest beside it, where nothing is written over the two files afterwards. Among plain
coordinates only a companion can be, where it has the payload's own name.
-/

namespace Digest

theorem isBlank_toDigits (value : Nat) : ∀ char ∈ Nat.toDigits 16 value, Text.isBlank char = false := by
  have digit : ∀ value < 16, Text.isBlank value.digitChar = false := by decide
  induction value using Nat.strongRecOn with
  | ind value ih =>
      by_cases small : value < 16
      · rw [Nat.toDigits_of_lt_base small]
        simpa using digit value small
      · rw [Nat.toDigits_of_base_le (by decide) (by omega)]
        intro char member
        rcases List.mem_append.mp member with front | last
        · exact ih (value / 16) (by omega) char front
        · rw [List.mem_singleton.mp last]
          exact digit (value % 16) (Nat.mod_lt _ (by decide))

theorem trim_sha1 (content : ByteArray) : Text.trim (sha1 content) = sha1 content := by
  refine Text.trim_of_clean fun char member => ?_
  rw [sha1, String.toList_ofList] at member
  obtain ⟨word, _, inside⟩ := List.mem_flatMap.mp member
  rcases List.mem_append.mp inside with padding | digits
  · rw [(List.mem_replicate.mp padding).2]
    decide
  · exact isBlank_toDigits _ char digits

end Digest

variable {files after : FileSystem} {path : Path} {content : ByteArray}

theorem verifyChecksum_written (read : after.read? path = some content)
    (digest : after.read? (checksumPath path) = some (Digest.sha1 content).toUTF8) :
    verifyChecksum after path = .ok true := by
  rw [verifyChecksum, FileSystem.readText?_of_read? digest, read]
  simp only [Digest.trim_sha1, beq_self_eq_true]

namespace Installer

variable {installer : Installer} {application : Application} {artifact : Artifact}
  {concurrency : Nat} {made : FileSystem} {order : List Step} {reported : List Installed}
  {entry : Installed} {source : Path}

namespace Completes

variable (completes : installer.Completes application concurrency files made after order)
  (member : artifact ∈ packaged application)

include completes member

theorem payload_once :
    order.count (.copy artifact.coordinate source (installer.payloadPath artifact.coordinate)) ≤ 1 := by
  rw [completes.interleaved.perm.count_eq]
  refine count_work member rfl fun other listed there => ?_
  rcases writes_of_mem there rfl with ⟨_, _, same⟩ | ⟨_, same⟩ | same
  · have coordinates := (Step.copy.inj same).1
    exact eq_of_identity member listed (congrArg Coordinate.identity coordinates.symm)
  · cases same
  · cases same

variable (located : artifact.locationPath = .ok source)

include located

theorem payload_copied :
    .copy artifact.coordinate source (installer.payloadPath artifact.coordinate) ∈ order := by
  obtain ⟨source', located', copied⟩ := completes.copied member
  rw [located] at located'
  cases located'
  exact copied

/-- A payload over which nothing is written has the bytes of its source. -/
theorem payload_stands
    (lasts : installer.Lasts application files.workingDirectory
      (.copy artifact.coordinate source (installer.payloadPath artifact.coordinate)))
    (apart : files.destination source ∉ installer.places application files.workingDirectory) :
    ∃ content, files.contentAt? (files.destination source) = some content ∧
      after.read? (installer.payloadPath artifact.coordinate) = some content := by
  have copied := completes.payload_copied member located
  obtain ⟨earlier, later, before, here, kept, untouched⟩ := completes.stands copied
  obtain ⟨content, read, wrote⟩ := Step.run_copy here
  have different : files.destination source ≠
      files.destination (installer.payloadPath artifact.coordinate) := fun same =>
    apart (Installer.mem_places.mpr
      ⟨_, completes.interleaved.perm.subset copied, congrArg some same.symm⟩)
  rw [before.destination, before.destination, if_neg different] at wrote
  refine ⟨content, ?_, completes.read_written copied rfl ?_⟩
  · rw [← untouched _ apart, ← before.destination]
    exact (FileSystem.read?_eq_some.mp read).2
  · rw [kept _ (lasts.not_mem rfl), ← before.destination, wrote.toPuts.contentAt?, if_pos rfl]

theorem payload_verified (checksums : installer.checksums = true)
    (lasts : installer.Lasts application files.workingDirectory
      (.copy artifact.coordinate source (installer.payloadPath artifact.coordinate)))
    (digestLasts : installer.Lasts application files.workingDirectory
      (.checksum (installer.payloadPath artifact.coordinate))) :
    verifyChecksum after (installer.payloadPath artifact.coordinate) = .ok true := by
  have inOrder : [installer.payloadStep artifact,
      .checksum (installer.payloadPath artifact.coordinate)].Sublist order := by
    refine List.Sublist.trans ?_ (completes.sublist member)
    rw [artifactSteps, checksumSteps, if_pos checksums]
    simp
  have fresh : Step.checksum (installer.payloadPath artifact.coordinate) ∉
      (Step.checksum (installer.payloadPath artifact.coordinate)).followers
        (installer.work application) := fun again =>
    digestLasts.not_mem rfl (List.mem_filterMap.mpr ⟨_, again, rfl⟩)
  have once : order.count (.copy artifact.coordinate source
      (installer.payloadPath artifact.coordinate)) ≤ 1 := completes.payload_once member
  rw [payloadStep, located] at inOrder
  obtain ⟨first, rest, rfl, behind⟩ := completes.interleaved.split_behind inOrder once fresh
  obtain ⟨earlier, later, before, here, kept, _⟩ := Step.runAll_around completes.ran
  obtain ⟨content, read, wrote⟩ := Step.run_checksum here
  have grows := completes.expands.grows.trans before
  rw [completes.expands.workingDirectory] at kept
  -- what runs behind the digest follows the copy and the digest, and spares both files
  have spared {step : Step} {path : Path} (writes : step.target? = some path)
      (lasts : installer.Lasts application files.workingDirectory step)
      (follow : ∀ other ∈ rest, other ∈ step.followers (installer.work application)) :
      after.contentAt? (files.destination path) = later.contentAt? (files.destination path) := by
    refine kept _ fun there => lasts.not_mem writes ?_
    obtain ⟨other, inside, same⟩ := List.mem_filterMap.mp there
    exact List.mem_filterMap.mpr ⟨other, follow other inside, same⟩
  have payload := spared rfl lasts fun other inside => (behind other inside).1
  have digest := spared rfl digestLasts fun other inside => (behind other inside).2
  have read' : after.read? (installer.payloadPath artifact.coordinate) = some content := by
    have other : files.destination (installer.payloadPath artifact.coordinate) ≠
        files.destination (checksumPath (installer.payloadPath artifact.coordinate)) :=
      (Path.placeFrom_extended_ne _ (by decide) (by decide) _).symm
    refine completes.read_written (completes.payload_copied member located) rfl ?_
    rw [payload, ← grows.destination, wrote.toPuts.contentAt?, grows.destination,
      grows.destination, if_neg other, ← grows.destination]
    exact (FileSystem.read?_eq_some.mp read).2
  have digest' : after.read? (checksumPath (installer.payloadPath artifact.coordinate)) =
      some (Digest.sha1 content).toUTF8 := by
    refine completes.read_written (completes.checked member checksums) rfl ?_
    rw [digest, ← grows.destination, wrote.toPuts.contentAt?, if_pos rfl]
  exact verifyChecksum_written read' digest'

/-- A companion with the payload's own place takes the payload's place. -/
theorem payload_overwritten
    (lasts : installer.Lasts application files.workingDirectory
      (installer.companionStep application artifact.coordinate))
    (same : files.destination (installer.companionPath application artifact.coordinate) =
      files.destination (installer.payloadPath artifact.coordinate)) :
    after.read? (installer.payloadPath artifact.coordinate) =
      some (installer.companionContent application artifact.coordinate) := by
  have written := completes.write_stands (completes.accompanied member) lasts
  exact completes.read_at (completes.payload_copied member located) rfl same written

end Completes

/-- Whatever is reported is a packaged artifact. Its payload has the bytes that the artifact's
location held before, and with digests agrees with its own, unless something is written over them or
the location is itself written. Among plain coordinates that takes a companion with the name of the
payload, and such a companion replaces it. -/
theorem installed_faithful
    (installed : installer.InstallsTo application concurrency files (after, .ok reported)) :
    (∀ entry ∈ reported,
      ∃ artifact ∈ packaged application, installer.installedAs application artifact = entry) ∧
    ∀ artifact ∈ packaged application, ∃ source, artifact.locationPath = .ok source ∧
      let payload := installer.payloadPath artifact.coordinate
      let companion := installer.companionPath application artifact.coordinate
      let lasts := installer.Lasts application files.workingDirectory
      (lasts (.copy artifact.coordinate source payload) →
        files.destination source ∉ installer.places application files.workingDirectory →
          ∃ content, files.contentAt? (files.destination source) = some content ∧
            after.read? payload = some content) ∧
      (installer.checksums = true → lasts (.copy artifact.coordinate source payload) →
        lasts (.checksum payload) → verifyChecksum after payload = .ok true) ∧
      ((∀ other ∈ packaged application, other.coordinate.Plain) →
        artifact.coordinate.fileName ≠ Pom.fileName artifact.coordinate →
          artifact.coordinate.fileName ≠ Model.descriptorName →
            lasts (.copy artifact.coordinate source payload) ∧
              (installer.checksums = true → lasts (.checksum payload))) ∧
      (lasts (installer.companionStep application artifact.coordinate) →
        files.destination companion = files.destination payload →
          after.read? payload =
            some (installer.companionContent application artifact.coordinate)) := by
  obtain ⟨made, order, completes, listed⟩ := installed.completes
  refine ⟨fun entry member => (listed entry).mp member, fun artifact member => ?_⟩
  obtain ⟨source, located, _⟩ := completes.copied member
  refine ⟨source, located, completes.payload_stands member located,
    completes.payload_verified member located, fun plain notPom notDescriptor => ?_,
    completes.payload_overwritten member located⟩
  exact ⟨lasts_payload plain member located notPom notDescriptor, lasts_digest plain member⟩

/-- Two variants of one artifact with digests, which share a directory and a companion. -/
theorem installed_faithful_variants :
    let artifact (classifier : Option String) (location : String) : Artifact :=
      ⟨⟨"g", "lib", "1.0", "jar", classifier, none⟩, some location, false, .empty, .empty⟩
    let tests := artifact (some "tests") "t.jar"
    let application := Application.ofRoot <|
      .ofDependencies ⟨"g", "app", "1.0", "jar", none, none⟩ (.ofList [artifact none "a.jar", tests])
    let files := (FileSystem.empty.place ⟨"a.jar"⟩ ⟨#[1]⟩).place ⟨"t.jar"⟩ ⟨#[2]⟩
    let installer : Installer := ⟨⟨"out"⟩, .default, true, true⟩
    ∃ after reported, installer.InstallsTo application 8 files (after, .ok reported) ∧
      tests ∈ packaged application ∧
        after.read? (installer.payloadPath tests.coordinate) = some ⟨#[2]⟩ ∧
          verifyChecksum after (installer.payloadPath tests.coordinate) = .ok true := by
  intro artifact tests application files installer
  have installed : installer.InstallsTo application 8 files _ :=
    installsTo_ordered (by decide +kernel) (by decide +kernel) (by decide +kernel)
  have member : tests ∈ packaged application := by decide +kernel
  have plain : ∀ other ∈ packaged application, other.coordinate.Plain := by decide +kernel
  obtain ⟨source, located, faithful, verified, lasts, _⟩ :=
    (installed_faithful installed).2 tests member
  cases located
  obtain ⟨copyLasts, digestLasts⟩ := lasts plain (by decide) (by decide)
  have apart : files.destination ⟨"t.jar"⟩ ∉
      installer.places application files.workingDirectory := by
    rw [mem_places_of_packaged (List.ne_nil_of_mem member)]
    decide +kernel
  obtain ⟨content, held, read⟩ := faithful copyLasts apart
  have bytes : files.contentAt? (files.destination ⟨"t.jar"⟩) = some ⟨#[2]⟩ := by decide +kernel
  rw [bytes] at held
  cases held
  exact ⟨_, _, installed, member, read, verified rfl copyLasts (digestLasts rfl)⟩

/-- A payload of the type `pom` is replaced by its companion. -/
theorem installed_replaced :
    let pom : Artifact :=
      ⟨⟨"g", "lib", "1.0", "pom", none, none⟩, some "lib.pom", false, .empty, .empty⟩
    let application := Application.ofRoot <|
      .ofDependencies ⟨"g", "app", "1.0", "jar", none, none⟩ (.ofList [pom])
    let files := FileSystem.empty.place ⟨"lib.pom"⟩ ⟨#[1]⟩
    let installer : Installer := ⟨⟨"out"⟩, .default, true, false⟩
    Coordinate.parse? "g:lib:1.0:pom" = some pom.coordinate ∧
      ∃ after reported, installer.InstallsTo application 8 files (after, .ok reported) ∧
        installer.installedAs application pom ∈ reported ∧
          files.read? ⟨"lib.pom"⟩ = some ⟨#[1]⟩ ∧
            after.read? (installer.payloadPath pom.coordinate) ≠ some ⟨#[1]⟩ := by
  intro pom application files installer
  have installed : installer.InstallsTo application 8 files _ :=
    installsTo_ordered (by decide +kernel) (by decide +kernel) (by decide +kernel)
  obtain ⟨_, _, _, listed⟩ := installed.completes
  have reported := (listed _).mpr ⟨pom, by decide +kernel, rfl⟩
  exact ⟨by decide +kernel, _, _, installed, reported, by decide +kernel, by decide +kernel⟩

end Installer

end AppBundle
