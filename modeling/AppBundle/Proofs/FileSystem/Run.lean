import AppBundle.FileSystem.Step
import AppBundle.Proofs.FileSystem.Change

namespace AppBundle

/-! Runs of steps. Each step writes the file that it names, or no file at all, so that a file keeps its
content over all steps that name other places. Tasks side by side keep the order of their own steps,
and their steps are those of one task after the other.
-/

variable {files before middle after : FileSystem} {step : Step} {steps first rest order task : List Step}
  {tasks : List (List Step)} {path source target : Path} {coordinate : Coordinate}
  {content : ByteArray} {location base : Location} {limit : Nat} {failure : Failure}

theorem Outcome.answer_error {α : Type} {outcome : Outcome} {value : α}
    (answered : outcome.answer value = .error failure) : outcome.failure? = some failure := by
  obtain ⟨files, stopped⟩ := outcome
  cases stopped with
  | none => cases answered
  | some cause => exact congrArg some (Except.error.inj answered)

theorem Outcome.map_answer {α β : Type} {outcome : Outcome} {value : α} {change : α → β} :
    (outcome.answer value).map change = outcome.answer (change value) := by
  obtain ⟨files, stopped⟩ := outcome
  cases stopped with
  | none => rfl
  | some cause => rfl

namespace Step

/-- The file that a step writes. -/
def target? : Step → Option Path
  | makeDirectory _ => none
  | copy _ _ target => some target
  | checksum path => some (checksumPath path)
  | write path _ => some path
  | refuse _ => none

/-- The place of the file that a step writes, from a working directory. -/
def place? (base : Location) (step : Step) : Option Location :=
  step.target?.map (Path.placeFrom base)

/-- The places of the files that steps write. -/
def places (base : Location) (steps : List Step) : List Location :=
  steps.filterMap (place? base)

theorem mem_places (member : step ∈ steps) (writes : step.target? = some path) :
    path.placeFrom base ∈ places base steps := by
  refine List.mem_filterMap.mpr ⟨step, member, ?_⟩
  rw [place?, writes]
  rfl

theorem places_append : places base (first ++ rest) = places base first ++ places base rest :=
  List.filterMap_append

/-- What may run behind a step: the steps of other tasks, and the later ones of its own. -/
def followers (step : Step) (tasks : List (List Step)) : List Step :=
  tasks.flatMap fun task => if step ∈ task then (task.dropWhile (· ≠ step)).tail else task

theorem attempt_complete {changed? : Option FileSystem}
    (ran : attempt files changed? failure = .complete after) : changed? = some after := by
  cases changed? with
  | none => cases ran
  | some changed =>
      cases ran
      rfl

theorem run_makeDirectory : files.Expands ((makeDirectory path).run files).files :=
  FileSystem.expands_makeDirectories

theorem expands_of_run (ran : (makeDirectory path).run files = .complete after) :
    files.Expands after := by
  have expands : files.Expands ((makeDirectory path).run files).files := run_makeDirectory
  rwa [ran] at expands

theorem run_copy (ran : (copy coordinate source target).run files = .complete after) :
    ∃ content, files.read? source = some content ∧
      files.Wrote target
        (if files.destination source = files.destination target then ByteArray.empty else content)
        after :=
  FileSystem.wrote_copy? (attempt_complete ran)

theorem run_checksum (ran : (checksum path).run files = .complete after) :
    ∃ content, files.read? path = some content ∧
      files.Wrote (checksumPath path) (Digest.sha1 content).toUTF8 after := by
  rw [run] at ran
  split at ran
  · cases ran
  · next content read => exact ⟨content, read, FileSystem.wrote_write? (attempt_complete ran)⟩

theorem run_write (ran : (write path content).run files = .complete after) :
    files.Wrote path content after :=
  FileSystem.wrote_write? (attempt_complete ran)

theorem attempt_changes {changed? : Option FileSystem}
    (wrote : ∀ changed, changed? = some changed →
      ∃ path content, step.target? = some path ∧ files.Wrote path content changed) :
    files.Expands (attempt files changed? failure).files ∨
      ∃ path content, step.target? = some path ∧
        files.Wrote path content (attempt files changed? failure).files := by
  cases changed? with
  | none => exact .inl (.refl files)
  | some changed => exact .inr (wrote changed rfl)

/-- Whether it succeeds or not, a step writes the file that it names or none. -/
theorem run_changes (files : FileSystem) (step : Step) :
    files.Expands (step.run files).files ∨
      ∃ path content, step.target? = some path ∧ files.Wrote path content (step.run files).files := by
  cases step with
  | makeDirectory path => exact .inl run_makeDirectory
  | copy coordinate source target =>
      refine attempt_changes fun changed copied => ?_
      obtain ⟨content, _, wrote⟩ := FileSystem.wrote_copy? copied
      exact ⟨target, _, rfl, wrote⟩
  | checksum path =>
      rw [run]
      split
      · exact .inl (.refl files)
      · exact attempt_changes fun changed written =>
          ⟨checksumPath path, _, rfl, FileSystem.wrote_write? written⟩
  | write path content =>
      exact attempt_changes fun changed written =>
        ⟨path, content, rfl, FileSystem.wrote_write? written⟩
  | refuse failure => exact .inl (.refl files)

theorem run_target (ran : step.run files = .complete after) (writes : step.target? = some path) :
    ∃ content, files.Wrote path content after := by
  cases step with
  | makeDirectory path => cases writes
  | copy coordinate source target =>
      cases writes
      obtain ⟨content, _, wrote⟩ := run_copy ran
      exact ⟨_, wrote⟩
  | checksum path =>
      cases writes
      obtain ⟨content, _, wrote⟩ := run_checksum ran
      exact ⟨_, wrote⟩
  | write path content =>
      cases writes
      exact ⟨content, run_write ran⟩
  | refuse failure => cases writes

theorem run_grows (files : FileSystem) (step : Step) : files.Grows (step.run files).files := by
  rcases run_changes files step with expands | ⟨path, content, _, wrote⟩
  · exact expands.grows
  · exact wrote.grows

theorem grows_of_run (ran : step.run files = .complete after) : files.Grows after := by
  have grows := run_grows files step
  rwa [ran] at grows

theorem contentAt?_run (elsewhere : step.place? files.workingDirectory ≠ some location) :
    (step.run files).files.contentAt? location = files.contentAt? location := by
  rcases run_changes files step with expands | ⟨path, content, writes, wrote⟩
  · exact expands.contents location
  · rw [wrote.toPuts.contentAt?, if_neg]
    intro same
    apply elsewhere
    rw [place?, writes, same]
    rfl

theorem runAll_cons :
    runAll files (step :: rest) = .complete after ↔
      ∃ next, step.run files = .complete next ∧ runAll next rest = .complete after := by
  rw [runAll]
  split
  · next changed ran => simp [ran, Outcome.complete]
  · next stopped =>
      constructor
      · intro completed
        exact absurd completed (stopped after)
      · intro completed
        obtain ⟨next, ran, _⟩ := completed
        exact absurd ran (stopped next)

/-- The steps behind others run where those succeeded. -/
theorem runAll_behind :
    runAll files (first ++ rest) =
      if (runAll files first).failure? = none then runAll (runAll files first).files rest
      else runAll files first := by
  induction first generalizing files with
  | nil => rfl
  | cons step first ih =>
      rw [List.cons_append, runAll, runAll]
      split
      · exact ih
      · next stopped =>
          have failed : (step.run files).failure? ≠ none := by
            intro none
            refine stopped (step.run files).files ?_
            rw [← none]
          rw [if_neg failed]

theorem runAll_append :
    runAll files (first ++ rest) = .complete after ↔
      ∃ middle, runAll files first = .complete middle ∧ runAll middle rest = .complete after := by
  rw [runAll_behind]
  generalize runAll files first = outcome
  obtain ⟨middle, failure⟩ := outcome
  cases failure with
  | none => simp [Outcome.complete]
  | some failure => simp [Outcome.complete]

/-- A step of a run, with the states around it. -/
theorem runAll_at (ran : runAll files (first ++ step :: rest) = .complete after) :
    ∃ earlier later, runAll files first = .complete earlier ∧ step.run earlier = .complete later ∧
      runAll later rest = .complete after := by
  obtain ⟨earlier, done, ran⟩ := runAll_append.mp ran
  obtain ⟨later, here, rest⟩ := runAll_cons.mp ran
  exact ⟨earlier, later, done, here, rest⟩

theorem runAll_grows (ran : runAll files steps = .complete after) : files.Grows after := by
  induction steps generalizing files with
  | nil =>
      cases ran
      exact .refl _
  | cons step rest ih =>
      obtain ⟨next, here, later⟩ := runAll_cons.mp ran
      exact (grows_of_run here).trans (ih later)

/-- However far they came, steps change no file that none of them names. -/
theorem contentAt?_files_runAll (elsewhere : location ∉ places files.workingDirectory steps) :
    (runAll files steps).files.contentAt? location = files.contentAt? location := by
  induction steps generalizing files with
  | nil => rfl
  | cons step rest ih =>
      have kept : (step.run files).files.contentAt? location = files.contentAt? location :=
        contentAt?_run fun here =>
          elsewhere (List.mem_filterMap.mpr ⟨step, List.mem_cons_self .., here⟩)
      rw [runAll]
      split
      · next changed ran =>
          rw [ran] at kept
          rw [← kept]
          refine ih ?_
          rw [(grows_of_run ran).workingDirectory]
          intro there
          obtain ⟨other, member, same⟩ := List.mem_filterMap.mp there
          exact elsewhere (List.mem_filterMap.mpr ⟨other, List.mem_cons_of_mem _ member, same⟩)
      · exact kept

theorem contentAt?_runAll (ran : runAll files steps = .complete after)
    (elsewhere : location ∉ places files.workingDirectory steps) :
    after.contentAt? location = files.contentAt? location := by
  have kept := contentAt?_files_runAll elsewhere
  rwa [ran] at kept

/-- A copy from one place to another, neither of which is written behind it. -/
theorem copy_stands (here : (copy coordinate source target).run files = .complete middle)
    (ran : runAll middle steps = .complete after)
    (apart : files.destination source ≠ files.destination target)
    (kept : files.destination source ∉ places files.workingDirectory steps)
    (alone : files.destination target ∉ places files.workingDirectory steps) :
    ∃ content, files.read? source = some content ∧ middle.read? target = some content ∧
      after.read? source = some content ∧ after.read? target = some content := by
  obtain ⟨content, read, wrote⟩ := run_copy here
  rw [if_neg apart] at wrote
  have untouched {location : Location} (elsewhere : location ∉ places files.workingDirectory steps) :
      after.contentAt? location = middle.contentAt? location := by
    rw [← wrote.grows.workingDirectory] at elsewhere
    exact contentAt?_runAll ran elsewhere
  have behind := runAll_grows ran
  refine ⟨content, read, wrote.read?, ?_, ?_⟩
  · refine (wrote.grows.trans behind).read?_kept read ?_
    rw [untouched kept, wrote.toPuts.contentAt?, if_neg apart]
  · refine behind.read?_kept wrote.read? ?_
    rw [wrote.grows.destination, untouched alone]

/-- A step of a run, with what the others leave as it is. -/
theorem runAll_around (ran : runAll files (first ++ step :: rest) = .complete after) :
    ∃ earlier later, files.Grows earlier ∧ step.run earlier = .complete later ∧
      (∀ location ∉ places files.workingDirectory rest,
        after.contentAt? location = later.contentAt? location) ∧
      ∀ location ∉ places files.workingDirectory (first ++ step :: rest),
        earlier.contentAt? location = files.contentAt? location := by
  obtain ⟨earlier, later, done, here, ended⟩ := runAll_at ran
  have before := runAll_grows done
  have stepped := grows_of_run here
  refine ⟨earlier, later, before, here, fun location elsewhere => ?_, fun location elsewhere => ?_⟩
  · refine contentAt?_runAll ended ?_
    rw [stepped.workingDirectory, before.workingDirectory]
    exact elsewhere
  · refine contentAt?_runAll done fun early => elsewhere ?_
    rw [places, List.filterMap_append]
    exact List.mem_append_left _ early

theorem refuse_not_mem (ran : runAll files steps = .complete after) : refuse failure ∉ steps := by
  intro member
  obtain ⟨first, rest, rfl⟩ := List.append_of_mem member
  obtain ⟨_, _, _, here, _⟩ := runAll_at ran
  cases here

/-- A failure names a file, a payload that could not be copied, or what a step refused. -/
theorem run_failure (stopped : (step.run files).failure? = some failure) :
    (∃ path, failure = .file path) ∨
      (∃ coordinate source target, failure = .installation coordinate source target) ∨
        step = refuse failure := by
  have attempted {changed? : Option FileSystem} {cause : Failure}
      (stopped : (attempt files changed? cause).failure? = some failure) : failure = cause := by
    cases changed? with
    | none => exact (Option.some.inj stopped).symm
    | some changed => cases stopped
  cases step with
  | makeDirectory path =>
      simp only [run] at stopped
      split at stopped
      · cases stopped
      · exact .inl ⟨path, (Option.some.inj stopped).symm⟩
  | copy coordinate source target =>
      exact .inr (.inl ⟨coordinate, source, target, attempted stopped⟩)
  | checksum path =>
      simp only [run] at stopped
      split at stopped
      · exact .inl ⟨path, (Option.some.inj stopped).symm⟩
      · exact .inl ⟨checksumPath path, attempted stopped⟩
  | write path content => exact .inl ⟨path, attempted stopped⟩
  | refuse cause => exact .inr (.inr (congrArg refuse (Option.some.inj stopped)))

theorem runAll_failure (stopped : (runAll files steps).failure? = some failure) :
    ∃ step ∈ steps, ∃ earlier : FileSystem, (step.run earlier).failure? = some failure := by
  induction steps generalizing files with
  | nil => cases stopped
  | cons step rest ih =>
      rw [runAll] at stopped
      split at stopped
      · obtain ⟨later, member, earlier, here⟩ := ih stopped
        exact ⟨later, List.mem_cons_of_mem _ member, earlier, here⟩
      · exact ⟨step, List.mem_cons_self .., files, stopped⟩

theorem followers_subset_flatten : step.followers tasks ⊆ tasks.flatten := by
  intro other member
  obtain ⟨task, listed, behind⟩ := List.mem_flatMap.mp member
  refine List.mem_flatten.mpr ⟨task, listed, ?_⟩
  split at behind
  · exact (List.dropWhile_sublist _).subset (List.mem_of_mem_tail behind)
  · exact behind

/-- A step that may run behind itself is there twice. -/
theorem count_of_mem_followers (member : step ∈ step.followers tasks) :
    1 < tasks.flatten.count step := by
  obtain ⟨task, listed, behind⟩ := List.mem_flatMap.mp member
  refine Nat.lt_of_lt_of_le ?_ ((List.sublist_flatten_of_mem listed).count_le step)
  split at behind
  · next inside =>
      obtain ⟨first, rest, rfl, absent⟩ := List.eq_append_cons_of_mem inside
      have dropped : (first ++ step :: rest).dropWhile (· ≠ step) = step :: rest := by
        rw [List.dropWhile_append_of_pos]
        · simp
        · intro other early
          have different : other ≠ step := fun same => absent (same ▸ early)
          simpa using different
      rw [dropped, List.tail_cons] at behind
      have positive := List.count_pos_iff.mpr behind
      rw [List.count_append, List.count_cons_self]
      omega
  · next outside => exact absurd behind outside

end Step

namespace Interleaving

theorem perm (interleaved : Interleaving limit tasks order) : order.Perm tasks.flatten := by
  induction interleaved with
  | done => exact .refl _
  | finish _ ih => simpa using ih
  | @next before after task order step _ _ ih =>
      refine (ih.cons step).trans ?_
      simp only [List.flatten_append, List.flatten_cons, List.cons_append]
      exact List.perm_middle.symm

theorem sublist (interleaved : Interleaving limit tasks order) (member : task ∈ tasks) :
    task.Sublist order := by
  induction interleaved generalizing task with
  | done => cases member
  | finish _ ih =>
      rcases List.mem_append.mp member with early | late
      · exact ih (List.mem_append_left _ early)
      · rcases List.mem_cons.mp late with rfl | late
        · exact List.nil_sublist _
        · exact ih (List.mem_append_right _ late)
  | @next before after running order step _ _ ih =>
      rcases List.mem_append.mp member with early | late
      · exact (ih (List.mem_append_left _ early)).cons step
      · rcases List.mem_cons.mp late with rfl | late
        · exact (ih (List.mem_append_right _ (List.mem_cons_self ..))).cons_cons step
        · exact (ih (List.mem_append_right _ (List.mem_cons_of_mem _ late))).cons step

theorem followers_append {earlier later : List (List Step)} :
    step.followers (earlier ++ later) = step.followers earlier ++ step.followers later :=
  List.flatMap_append

theorem followers_cons {later : List (List Step)} :
    step.followers (task :: later) =
      (if step ∈ task then (task.dropWhile (· ≠ step)).tail else task) ++ step.followers later :=
  rfl

theorem followers_of_absent (absent : step ∉ tasks.flatten) :
    step.followers tasks = tasks.flatten := by
  rw [List.flatten_eq_flatMap, Step.followers]
  refine List.flatMap_congr fun task member => if_neg fun inside => ?_
  exact absent (List.mem_flatten.mpr ⟨task, member, inside⟩)

theorem followers_subset {head : Step} {earlier later : List (List Step)} :
    step.followers (earlier ++ task :: later) ⊆ step.followers (earlier ++ (head :: task) :: later) := by
  intro other member
  simp only [followers_append, followers_cons, List.mem_append] at member ⊢
  refine member.imp_right (Or.imp_left fun here => ?_)
  by_cases same : head = step
  · have whole : other ∈ task := by
      split at here
      · exact (List.dropWhile_sublist _).subset (List.mem_of_mem_tail here)
      · exact here
    simpa [same] using whole
  · have different : step ≠ head := fun same' => same same'.symm
    split at here
    · next inside => simpa [same, inside] using here
    · next outside => simp [outside, different, here]

/-- Behind the last occurrence of a step there are only its followers. -/
theorem split (interleaved : Interleaving limit tasks order) (member : step ∈ order) :
    ∃ first rest, order = first ++ step :: rest ∧ ∀ other ∈ rest, other ∈ step.followers tasks := by
  induction interleaved with
  | done => cases member
  | @finish before after order _ ih =>
      obtain ⟨first, rest, same, follow⟩ := ih member
      refine ⟨first, rest, same, fun other behind => ?_⟩
      simpa [followers_append, followers_cons] using follow other behind
  | @next before after task order head _ rest ih =>
      by_cases again : step ∈ order
      · obtain ⟨first, rest, same, follow⟩ := ih again
        exact ⟨head :: first, rest, congrArg (head :: ·) same, fun other behind =>
          followers_subset (follow other behind)⟩
      · obtain rfl : step = head := (List.mem_cons.mp member).resolve_right again
        refine ⟨[], order, rfl, fun other behind => ?_⟩
        -- the step is in none of the other tasks, which all follow it as a whole
        have others := rest.perm
        simp only [List.flatten_append, List.flatten_cons] at others
        have spread := others.subset behind
        have absent : step ∉ before.flatten ++ (task ++ after.flatten) :=
          fun here => again (others.symm.subset here)
        simp only [List.mem_append, not_or] at absent
        rw [followers_append, followers_cons, followers_of_absent absent.1,
          followers_of_absent absent.2.2]
        simpa using spread

/-- Of two steps that come in their order, with the first only once, whatever runs behind the last
occurrence of the second follows both. -/
theorem split_behind {second : Step} (interleaved : Interleaving limit tasks order)
    (inOrder : [step, second].Sublist order) (once : order.count step ≤ 1)
    (last : second ∉ second.followers tasks) :
    ∃ first rest, order = first ++ second :: rest ∧
      ∀ other ∈ rest, other ∈ step.followers tasks ∧ other ∈ second.followers tasks := by
  have ran : step ∈ order := inOrder.subset (by simp)
  have ranBehind : second ∈ order := inOrder.subset (by simp)
  obtain ⟨early, later, whole, follow⟩ := interleaved.split ran
  obtain ⟨first, rest, whole', follow'⟩ := interleaved.split ranBehind
  have alone : step ∉ early ∧ step ∉ later := by
    rw [whole, List.count_append, List.count_cons_self] at once
    constructor
    · intro inside
      have := List.count_pos_iff.mpr inside
      omega
    · intro inside
      have := List.count_pos_iff.mpr inside
      omega
  have behind : second ∈ later := by
    rw [whole] at inOrder
    obtain ⟨left, right, parts, front, back⟩ := List.sublist_append_iff.mp inOrder
    cases left with
    | nil =>
        rw [List.nil_append] at parts
        rw [← parts, List.cons_sublist_cons] at back
        exact back.subset (List.mem_singleton_self _)
    | cons head tail =>
        have same : step = head := (List.cons.inj parts).1
        exact absurd (front.subset (same ▸ List.mem_cons_self ..)) alone.1
  refine ⟨first, rest, whole', fun other member => ⟨follow _ ?_, follow' _ member⟩⟩
  rcases List.append_eq_append_iff.mp (whole.symm.trans whole') with
    ⟨between, _, same⟩ | ⟨between, _, same⟩
  · cases between with
    | nil => exact absurd behind ((List.cons.inj same).1 ▸ alone.2)
    | cons head between =>
        rw [(List.cons.inj same).2]
        exact List.mem_append_right _ (List.mem_cons_of_mem _ member)
  · -- here the second step would run again behind its last occurrence
    cases between with
    | nil => exact absurd behind ((List.cons.inj same).1 ▸ alone.2)
    | cons head between =>
        refine absurd (follow' second ?_) last
        rw [(List.cons.inj same).2]
        exact List.mem_append_right _ (List.mem_cons_of_mem _ behind)

/-- A step in a run of interleaved tasks. What its followers do not name is in the end as the step
left it, and what no step names is before it as it was. -/
theorem stands (interleaved : Interleaving limit tasks order)
    (ran : Step.runAll files order = .complete after) (member : step ∈ order) :
    ∃ earlier later, files.Grows earlier ∧ step.run earlier = .complete later ∧
      (∀ location ∉ Step.places files.workingDirectory (step.followers tasks),
        after.contentAt? location = later.contentAt? location) ∧
      ∀ location ∉ Step.places files.workingDirectory order,
        earlier.contentAt? location = files.contentAt? location := by
  obtain ⟨first, rest, rfl, follow⟩ := interleaved.split member
  obtain ⟨earlier, later, before, here, kept, untouched⟩ := Step.runAll_around ran
  refine ⟨earlier, later, before, here, fun location last => kept location fun behind => ?_,
    untouched⟩
  obtain ⟨other, inside, same⟩ := List.mem_filterMap.mp behind
  exact last (List.mem_filterMap.mpr ⟨other, follow other inside, same⟩)

/-- One task after the other is an order for any number of tasks at a time. -/
theorem inOrder (positive : 0 < limit) : Interleaving limit tasks tasks.flatten := by
  induction tasks with
  | nil => exact .done
  | cons task rest ih =>
      induction task with
      | nil =>
          change Interleaving limit ([] ++ [] :: rest) rest.flatten
          exact .finish ih
      | cons step task later =>
          change Interleaving limit ([] ++ (step :: task) :: rest) (step :: (task ++ rest.flatten))
          exact .next positive later

/-- It is the only order for one task at a time. -/
theorem alone (interleaved : Interleaving limit tasks order) (limited : limit ≤ 1) :
    order = tasks.flatten := by
  induction interleaved with
  | done => rfl
  | finish _ ih => simpa using ih
  | @next before _ _ _ _ running _ ih =>
      obtain rfl : before = [] := List.length_eq_zero_iff.mp (by omega)
      simpa using ih

end Interleaving

end AppBundle
