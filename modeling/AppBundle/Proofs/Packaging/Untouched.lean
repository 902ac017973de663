import AppBundle.Command.Package
import AppBundle.Proofs.Packaging.Stages

namespace AppBundle

/-! What a request leaves behind when it fails. Everything is worked out before anything is written,
and writing itself fails only over files: the application that is written is sound, so that its
installation refuses none of its artifacts.
-/

namespace Packager

variable {record : SnapshotRecord} {repository output : Path} {snapshot : Snapshot}
  {packager : Packager} {files after : FileSystem} {application : Application} {failure : Failure}

theorem AssemblesTo.sound (loaded : Snapshot.ofRecord record repository = .ok snapshot)
    (answering : packager.resolver = snapshot.resolver)
    (assembles : packager.AssemblesTo files (.ok application)) : application.Sound := by
  obtain ⟨resolver, configuration⟩ := packager
  obtain rfl : resolver = snapshot.resolver := answering
  obtain ⟨built, builds, reached⟩ := assembles
  obtain ⟨started, rfl, completed⟩ := bind_ok.mp reached.symm
  obtain ⟨introspected, here, completed⟩ := bind_ok.mp completed
  obtain ⟨extended, there, merged⟩ := bind_ok.mp completed
  have stages := (stages_sound loaded configuration files started builds).2 introspected here
  exact ((stages.2 extended there).2 application merged).1

/-- The root descriptor is written by steps that refuse nothing. -/
theorem describe_failure
    (stopped : (packager.describe output application files).failure? = some failure) :
    (∃ path, failure = .file path) ∨
      ∃ coordinate source target, failure = .installation coordinate source target := by
  obtain ⟨step, planned, earlier, here⟩ := Step.runAll_failure stopped
  rcases Step.run_failure here with file | payload | rfl
  · exact .inl file
  · exact .inr payload
  · simp [Model.descriptorSteps] at planned

theorem WritesTo.of_error (sound : application.Sound)
    (failed : packager.WritesTo output application files (after, .error failure)) :
    (∃ path, failure = .file path) ∨
      ∃ coordinate source target, failure = .installation coordinate source target := by
  obtain ⟨described, failure?, ran, outcome⟩ := failed
  cases failure? with
  | some cause =>
      obtain rfl : failure = cause := Except.error.inj (congrArg Prod.snd outcome)
      exact describe_failure (by rw [ran])
  | none =>
      obtain ⟨installed, reported, installs, same⟩ := outcome
      obtain ⟨rfl, answered⟩ := Prod.mk.inj same
      obtain rfl : reported = .error failure := map_error.mp answered.symm
      exact sound.installs_failure installs

end Packager

namespace PackageRequest

variable {request : PackageRequest} {home : Path} {files after : FileSystem} {failure : Failure}

/-- One step after the other is one way to run a request. -/
theorem run_runsTo : request.RunsTo home files (request.run home files) := by
  unfold RunsTo run
  cases request.packager home files with
  | error failure => rfl
  | ok packager => exact Packager.package_packagesTo

/-- A request is answered from a record that was read. -/
theorem packager_loaded {packager : Packager} (ready : request.packager home files = .ok packager) :
    ∃ record repository snapshot, Snapshot.ofRecord record repository = .ok snapshot ∧
      packager.resolver = snapshot.resolver := by
  obtain ⟨_, _, ready⟩ := bind_ok.mp ready
  obtain ⟨_, _, ready⟩ := bind_ok.mp ready
  obtain ⟨snapshot, loaded, same⟩ := bind_ok.mp ready
  cases same
  unfold Snapshot.load at loaded
  split at loaded
  · cases loaded
  · obtain ⟨record, _, recorded⟩ := bind_ok.mp loaded
    exact ⟨record, _, snapshot, recorded, rfl⟩

/-- However the work of a request runs side by side, a failure that is not over a file leaves the
file system as it was. -/
theorem RunsTo.files_of_failure (failed : request.RunsTo home files (after, .error failure))
    (elsewhere : ∀ path, failure ≠ .file path)
    (uncopied : ∀ coordinate source target, failure ≠ .installation coordinate source target) :
    after = files := by
  unfold RunsTo at failed
  cases ready : request.packager home files with
  | error cause =>
      rw [ready] at failed
      exact congrArg Prod.fst failed
  | ok packager =>
      rw [ready] at failed
      obtain ⟨assembled, assembles, outcome⟩ := failed
      cases assembled with
      | error cause => exact congrArg Prod.fst outcome
      | ok application =>
          -- once there is an application, only writing can still fail
          obtain ⟨record, repository, snapshot, loaded, answering⟩ := packager_loaded ready
          have sound := assembles.sound loaded answering
          rcases Packager.WritesTo.of_error sound outcome with
            ⟨path, file⟩ | ⟨coordinate, source, target, payload⟩
          · exact absurd file (elsewhere path)
          · exact absurd payload (uncopied coordinate source target)

/-- The last stage before writing fails: the application does not depend on a model that is to be
merged into it. -/
theorem RunsTo.files_of_failure_unmatched :
    let request : PackageRequest :=
      ⟨⟨"graph.json"⟩, ⟨"out"⟩, some ⟨"config.json"⟩, none, false, some ⟨"m2"⟩, none, false⟩
    let graph := "\x7b\"root\":\"g:app:1\",\"dependencies\":[\"g:a:1\"]," ++
      "\"nodes\":[\x7b\"coordinate\":\"g:a:1\"\x7d]\x7d"
    let configuration := "\x7b\"nested_models\":[\"sub/model.json\"],\"introspect\":false\x7d"
    let descriptor := "\x7b\"artifactCoordinates\":\x7b\"groupId\":\"g\"," ++
      "\"artifactId\":\"sub\",\"version\":\"1\"\x7d\x7d"
    let files := ((FileSystem.empty.place ⟨"graph.json"⟩ graph.toUTF8).place ⟨"config.json"⟩
      configuration.toUTF8).place ⟨"sub/model.json"⟩ descriptor.toUTF8
    ∃ after failure, request.RunsTo ⟨"/home"⟩ files (after, .error failure) ∧
      failure = .missingCoordinate (.mergeTarget ⟨"g", "sub", "1", "jar", none, none⟩) ∧
        after = files := by
  intro request graph configuration descriptor files
  let coordinate : Coordinate := ⟨"g", "sub", "1", "jar", none, none⟩
  have failed : (request.run ⟨"/home"⟩ files).2.map (fun _ => ()) =
      .error (.missingCoordinate (.mergeTarget coordinate)) := by
    decide +kernel
  -- from here on the request is any request that fails so, and nothing is run again
  clear_value request files
  have ran : request.RunsTo ⟨"/home"⟩ files (request.run ⟨"/home"⟩ files) := run_runsTo
  generalize request.run ⟨"/home"⟩ files = outcome at failed ran
  obtain ⟨after, answer⟩ := outcome
  obtain rfl := map_error.mp failed
  exact ⟨after, _, ran, rfl, RunsTo.files_of_failure ran (fun _ => nofun) fun _ _ _ => nofun⟩

end PackageRequest

end AppBundle
