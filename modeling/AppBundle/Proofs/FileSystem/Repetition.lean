import AppBundle.Proofs.FileSystem.Schedule

namespace AppBundle

/-! Running steps again. Where steps succeeded once they succeed again on whatever grew out of what they
left, and then nothing new is made: files that are there get other contents. Steps that read only what
none of them writes, or what earlier ones of them wrote, leave the same contents the second time.
-/

variable {before middle after : FileSystem} {path source target : Path} {location here : Location}
  {content : ByteArray} {entry : Entry} {names : List RawText} {step : Step}
  {first rest steps : List Step} {base : Location} {known more : Location → Prop}
  {contents others : Location → Option ByteArray}

/-- Entries of the same locations in the same order. At each location only the first may differ. -/
inductive Refilled : List (Location × Entry) → List (Location × Entry) → Prop where
  | nil : Refilled [] []
  | cons {location : Location} {old new : Entry} {earlier later : List (Location × Entry)}
      (rest : Refilled earlier later) (kept : later.lookup location = earlier.lookup location) :
      Refilled ((location, old) :: earlier) ((location, new) :: later)

namespace Refilled

variable {earlier later last : List (Location × Entry)}

theorem refl (entries : List (Location × Entry)) : Refilled entries entries := by
  induction entries with
  | nil => exact .nil
  | cons next rest ih => exact .cons ih rfl

theorem trans (first : Refilled earlier later) (second : Refilled later last) :
    Refilled earlier last := by
  induction first generalizing last with
  | nil => exact second
  | cons _ kept ih =>
      cases second with
      | cons rest kept' => exact .cons (ih rest) (kept'.trans kept)

theorem putEntry (there : (earlier.lookup location).isSome = true) :
    Refilled earlier (putEntry location entry earlier) := by
  induction earlier with
  | nil => cases there
  | cons next rest ih =>
      obtain ⟨first, value⟩ := next
      rw [AppBundle.putEntry]
      by_cases same : first = location
      · subst same
        simpa using .cons (.refl rest) rfl
      · have different : (location == first) = false := beq_false_of_ne (Ne.symm same)
        rw [List.lookup_cons, different] at there
        rw [if_neg same]
        refine .cons (ih there) ?_
        rw [lookup_putEntry, if_neg same]

theorem lookup_eq_none (refilled : Refilled earlier later) (absent : earlier.lookup location = none) :
    later.lookup location = none := by
  induction refilled with
  | nil => rfl
  | @cons first _ _ _ _ _ _ ih =>
      rw [List.lookup_cons] at absent ⊢
      cases same : location == first with
      | true => simp [same] at absent
      | false =>
          rw [same] at absent
          exact ih absent

theorem eq (refilled : Refilled earlier later)
    (same : ∀ location, later.lookup location = earlier.lookup location) : later = earlier := by
  induction refilled with
  | nil => rfl
  | @cons first old new earlier later _ kept ih =>
      have value : new = old := by simpa using same first
      have behind : later = earlier := by
        refine ih fun location => ?_
        by_cases here : location = first
        · exact here ▸ kept
        · simpa [List.lookup_cons, beq_false_of_ne here] using same location
      rw [value, behind]

end Refilled

namespace FileSystem

/-- Files have new contents, and nothing was made. -/
structure Refills (before after : FileSystem) : Prop where
  workingDirectory : after.workingDirectory = before.workingDirectory
  entries : Refilled before.entries after.entries
  top : after.entries.lookup [] = before.entries.lookup []

theorem Refills.refl (files : FileSystem) : files.Refills files :=
  ⟨rfl, .refl _, rfl⟩

theorem Refills.trans (first : before.Refills middle) (second : middle.Refills after) :
    before.Refills after where
  workingDirectory := second.workingDirectory.trans first.workingDirectory
  entries := first.entries.trans second.entries
  top := second.top.trans first.top

/-- Files that have their old contents again leave no trace. -/
theorem Refills.eq (refills : before.Refills after) (grows : before.Grows after)
    (contents : after.contentAt? = before.contentAt?) : after = before := by
  have entries : after.entries = before.entries := by
    refine refills.entries.eq fun location => ?_
    cases location with
    | nil => exact refills.top
    | cons name rest =>
        cases found : before.entries.lookup (name :: rest) with
        | none => exact refills.entries.lookup_eq_none found
        | some entry =>
            cases entry with
            | directory => exact grows.directories (name :: rest) found
            | file content =>
                have here := congrFun contents (name :: rest)
                rw [contentAt?_eq_some.mpr (show before.entryAt? (name :: rest) = _ from found)] at here
                exact contentAt?_eq_some.mp here
  cases before
  cases after
  exact (mk.injEq ..).mpr ⟨entries, refills.workingDirectory⟩

theorem entryAt?_inner {files : FileSystem} (inner : location ≠ []) :
    files.entryAt? location = files.entries.lookup location := by
  cases location with
  | nil => exact absurd rfl inner
  | cons name rest => rfl

theorem Grows.newLocation (grows : before.Grows after)
    (found : before.newLocation here names = .ok location) :
    after.newLocation here names = .ok location := by
  cases last : names.getLast? with
  | none => simp [FileSystem.newLocation, last] at found
  | some name =>
      rw [newLocation_eq last, bind_ok] at found ⊢
      obtain ⟨directory, led, named⟩ := found
      exact ⟨directory, grows.follow led, named⟩

theorem write?_eq_some :
    before.write? path content = some after ↔
      admits path = true ∧ path.text ≠ "" ∧ (before.start path).2.getLast? ≠ some ("" : RawText) ∧
        ∃ location, before.newLocation (before.start path).1 (before.start path).2 = .ok location ∧
          before.entryAt? location ≠ some .directory ∧ after = before.put location (.file content) := by
  unfold write?
  dsimp only
  split
  · next refused =>
      refine iff_of_false (by simp) ?_
      rintro ⟨admitted, nonempty, _⟩
      simp [admitted, nonempty] at refused
  · next fit =>
      rw [not_or, Bool.not_eq_true, Bool.not_eq_false'] at fit
      split
      · next ended => simp [ended]
      · next ended =>
          split
          · next refused => simp [refused]
          · next location found => simp [fit.1, fit.2, ended, found, eq_comm]

/-- A file that was written can be written again, in its place. -/
theorem write?_again (written : before.write? path content = some middle) (grows : middle.Grows after)
    (other : ByteArray) : ∃ again, after.write? path other = some again ∧ after.Refills again := by
  have whole := (wrote_write? written).grows.trans grows
  obtain ⟨admitted, nonempty, ended, location, found, free, rfl⟩ := write?_eq_some.mp written
  obtain ⟨directory, name, _, _, _, _, _, _, rfl⟩ := newLocation_ok found
  have inner : directory ++ [name] ≠ [] := by simp
  obtain ⟨kept, isFile⟩ := Option.isSome_iff_exists.mp <|
    grows.files (directory ++ [name]) (by simp [contentAt?, entryAt?_put inner])
  have there := contentAt?_eq_some.mp isFile
  refine ⟨after.put (directory ++ [name]) (.file other), write?_eq_some.mpr ?_, rfl, ?_, ?_⟩
  · rw [whole.start]
    exact ⟨admitted, nonempty, ended, _, whole.newLocation found, by simp [there], rfl⟩
  · refine .putEntry ?_
    rw [← entryAt?_inner inner, there]
    rfl
  · exact lookup_putEntry.trans (if_neg inner.symm)

theorem Grows.reads (grows : before.Grows after) (read : before.read? path = some content) :
    ∃ kept, after.read? path = some kept :=
  Option.isSome_iff_exists.mp (grows.read? (Option.isSome_iff_exists.mpr ⟨content, read⟩))

theorem copy?_again (copied : before.copy? source target = some middle) (grows : middle.Grows after) :
    ∃ again, after.copy? source target = some again ∧ after.Refills again := by
  unfold copy? at copied ⊢
  obtain ⟨content, read, copied⟩ := Option.bind_eq_some_iff.mp copied
  obtain ⟨emptied, cleared, copied⟩ := Option.bind_eq_some_iff.mp copied
  obtain ⟨_, _, written⟩ := Option.bind_eq_some_iff.mp copied
  have onwards := (wrote_write? written).grows.trans grows
  have whole := (wrote_write? cleared).grows.trans onwards
  obtain ⟨kept, reread⟩ := whole.reads read
  obtain ⟨blank, emptied', refills⟩ := write?_again cleared onwards ByteArray.empty
  have grown := (wrote_write? emptied').grows
  obtain ⟨last, still⟩ := grown.reads reread
  obtain ⟨again, rewritten, refills'⟩ := write?_again written (grows.trans grown) last
  exact ⟨again, by simp [reread, emptied', still, rewritten], refills.trans refills'⟩

/-- Directories that were made are there, unless the path has none that could be made. -/
theorem makeDirectories_again (made : before.makeDirectories path = (middle, true))
    (grows : middle.Grows after) : after.makeDirectories path = (after, true) := by
  by_cases bare : path.text = "" ∨ path.parent?.isNone
  · obtain ⟨outer, paths⟩ := ancestors_cons path.text.size path
    rw [makeDirectories, paths, makeNested, if_pos bare]
  · obtain ⟨nonempty, inner⟩ := not_or.mp bare
    have there := isDirectory_of_makeDirectories nonempty (by simpa [Option.isSome_iff_ne_none] using inner) made
    exact makeDirectories_of_isDirectory (grows.isDirectory there)

end FileSystem

namespace Step

theorem run_again (ran : step.run before = .complete middle) (grows : middle.Grows after) :
    ∃ again, step.run after = .complete again ∧ after.Refills again := by
  cases step with
  | makeDirectory path =>
      have made := FileSystem.makeDirectories_again (makeDirectory_ok.mp ran) grows
      exact ⟨after, makeDirectory_ok.mpr made, .refl after⟩
  | copy coordinate source target =>
      obtain ⟨again, copied, refills⟩ := FileSystem.copy?_again (attempt_complete ran) grows
      exact ⟨again, by rw [run, copied]; rfl, refills⟩
  | checksum path =>
      obtain ⟨content, read, wrote⟩ := run_checksum ran
      simp only [run, read] at ran
      obtain ⟨kept, reread⟩ := (wrote.grows.trans grows).reads read
      obtain ⟨again, written, refills⟩ := FileSystem.write?_again (attempt_complete ran) grows
        (Digest.sha1 kept).toUTF8
      exact ⟨again, by simp only [run, reread, written]; rfl, refills⟩
  | write path content =>
      obtain ⟨again, written, refills⟩ := FileSystem.write?_again (attempt_complete ran) grows content
      exact ⟨again, by rw [run, written]; rfl, refills⟩
  | refuse failure => cases ran

theorem runAll_again (ran : runAll before steps = .complete middle) (grows : middle.Grows after) :
    ∃ again, runAll after steps = .complete again ∧ after.Refills again := by
  induction steps generalizing before after with
  | nil => exact ⟨after, rfl, .refl after⟩
  | cons step rest ih =>
      obtain ⟨next, here, later⟩ := runAll_cons.mp ran
      obtain ⟨stepped, here', refills⟩ := run_again here ((runAll_grows later).trans grows)
      obtain ⟨again, later', refills'⟩ := ih later (grows.trans (grows_of_run here'))
      exact ⟨again, runAll_cons.mpr ⟨stepped, here', later'⟩, refills.trans refills'⟩

/-- Steps that read only known places and what steps before them wrote. -/
def Sourced (base : Location) : (Location → Prop) → List Step → Prop
  | _, [] => True
  | known, step :: rest =>
      (∀ place ∈ step.source? base, known place) ∧
        Sourced base (fun place => known place ∨ place ∈ step.place? base) rest

theorem Sourced.cons_of_none (reads : step.source? base = none)
    (later : Sourced base (fun place => known place ∨ place ∈ step.place? base) rest) :
    Sourced base known (step :: rest) := by
  refine ⟨fun place read => ?_, later⟩
  rw [reads] at read
  cases read

theorem Sourced.mono (sourced : Sourced base known steps) (knows : ∀ place, known place → more place) :
    Sourced base more steps := by
  induction steps generalizing known more with
  | nil => trivial
  | cons step rest ih =>
      obtain ⟨here, later⟩ := sourced
      exact ⟨fun place reads => knows place (here place reads),
        ih later fun place => Or.imp_left (knows place)⟩

theorem Sourced.append (sourced : Sourced base known first) (later : Sourced base known rest) :
    Sourced base known (first ++ rest) := by
  induction first generalizing known with
  | nil => exact later
  | cons step first ih =>
      exact ⟨sourced.1, ih sourced.2 (later.mono fun _ => .inl)⟩

theorem Sourced.flatMap {α : Type} {items : List α} {plan : α → List Step}
    (sourced : ∀ item ∈ items, Sourced base known (plan item)) :
    Sourced base known (items.flatMap plan) := by
  induction items with
  | nil => trivial
  | cons item rest ih =>
      obtain ⟨here, later⟩ := List.forall_mem_cons.mp sourced
      exact here.append (ih later)

theorem value?_congr (same : ∀ place ∈ step.source? base, contents place = others place) :
    step.value? base contents = step.value? base others := by
  cases step with
  | copy coordinate source target => simp only [value?, same _ rfl]
  | checksum path => simp only [value?, same _ rfl]
  | _ => rfl

/-- Contents that are the same at the known places are so where steps have written. -/
theorem Sourced.foldl_effect (sourced : Sourced base known steps)
    (same : ∀ place, known place → contents place = others place)
    (place : Location) (settled : known place ∨ place ∈ places base steps) :
    steps.foldl (effect base) contents place = steps.foldl (effect base) others place := by
  induction steps generalizing known contents others with
  | nil => exact same place (settled.resolve_right List.not_mem_nil)
  | cons step rest ih =>
      obtain ⟨here, later⟩ := sourced
      have value : step.value? base contents = step.value? base others :=
        value?_congr fun place reads => same place (here place reads)
      refine ih later ?_ ?_
      · intro place reached
        unfold effect
        cases writes : step.place? base with
        | none => exact same place (reached.resolve_right (by simp [writes]))
        | some written =>
            by_cases here : place = written
            · simp [here, value]
            · have other : known place := reached.resolve_right (by simpa [writes, eq_comm] using here)
              simp [Function.update_of_ne here, same place other]
      · rw [places, List.filterMap_cons] at settled
        split at settled
        · next nothing => exact settled.imp_left .inl
        · next written writes =>
            rcases settled with early | late
            · exact .inl (.inl early)
            · rcases List.mem_cons.mp late with rfl | late
              · exact .inl (.inr writes)
              · exact .inr late

/-- Steps that read what none of them writes, or what earlier ones of them wrote, change nothing when
they run on what they left. -/
theorem runAll_twice (ran : runAll before steps = .complete after)
    (sourced : Sourced before.workingDirectory
      (· ∉ places before.workingDirectory steps) steps) :
    runAll after steps = .complete after := by
  obtain ⟨again, ran', refills⟩ := runAll_again ran (.refl after)
  have grown := runAll_grows ran
  have contents : again.contentAt? = after.contentAt? := by
    rw [contentAt?_runAll_eq ran', grown.workingDirectory]
    conv_rhs => rw [contentAt?_runAll_eq ran]
    funext place
    refine sourced.foldl_effect (fun place other => contentAt?_runAll ran other) place ?_
    exact (Decidable.em _).symm
  rw [ran', refills.eq (runAll_grows ran') contents]

end Step

end AppBundle
