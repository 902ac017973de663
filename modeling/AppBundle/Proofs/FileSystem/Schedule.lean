import Mathlib.Logic.Function.Basic
import AppBundle.Proofs.FileSystem.Outside
import AppBundle.Proofs.FileSystem.Run

namespace AppBundle

/-! Tasks under every schedule. A task is robust when it runs to its end however files grow in between,
as long as they can still grow into some final state. Steps that neither write what the other writes nor
read it commute, so that the contents they leave do not depend on their order.
-/

variable {files before after final : FileSystem} {step left right : Step}
  {steps rest order task : List Step} {tasks : List (List Step)} {base location : Location}
  {limit : Nat} {contents : Location → Option ByteArray}

namespace Step

/-- Steps that all succeed, whatever else is written before each of them on the way to a final state. -/
def Robust (final : FileSystem) : FileSystem → List Step → Prop
  | _, [] => True
  | files, step :: rest =>
      ∀ before : FileSystem, files.Grows before → before.Grows final →
        ∃ after, step.run before = .complete after ∧ after.Grows final ∧ Robust final after rest

theorem Robust.grows (robust : Robust final files steps) (grown : files.Grows before) :
    Robust final before steps := by
  cases steps with
  | nil => trivial
  | cons step rest =>
      intro between later within
      exact robust between (grown.trans later) within

end Step

namespace Step.Robust

variable {coordinate : Coordinate} {directory path source : Path} {text : RawText}
  {names : List RawText} {content : ByteArray}

theorem makeDirectory (opened : files.isDirectory directory = true)
    (goesOn : directory.Extends names path)
    (ends : (∀ name ∈ names.getLast?, ∃ base : Path, path = base.join ⟨name⟩) ∨
      files.isDirectory path = true)
    (there : final.isDirectory path = true)
    (next : ∀ later, files.Grows later → later.isDirectory path = true → Robust final later rest) :
    Robust final files (.makeDirectory path :: rest) := by
  intro before grown within
  have result : ∃ made, before.makeDirectories path = (made, true) ∧ made.Grows final ∧
      made.isDirectory path = true := by
    rcases ends with ends | here
    · exact FileSystem.makeDirectories_within (grown.isDirectory opened) goesOn ends within there
    · have still := grown.isDirectory here
      exact ⟨before, FileSystem.makeDirectories_of_isDirectory still, within, still⟩
  obtain ⟨made, done, within', isDirectory⟩ := result
  have ran := Step.makeDirectory_ok.mpr done
  exact ⟨made, ran, within', next made (grown.trans (grows_of_run ran)) isDirectory⟩

section Files

variable (opened : files.isDirectory directory = true) (name : Path.IsName text)

include opened name

theorem write (there : (final.read? (directory.join ⟨text⟩)).isSome = true)
    (next : ∀ later, files.Grows later → Robust final later rest) :
    Robust final files (.write (directory.join ⟨text⟩) content :: rest) := by
  intro before grown within
  obtain ⟨written, done, within'⟩ :=
    FileSystem.write?_within (grown.isDirectory opened) name within there content
  have ran : (Step.write (directory.join ⟨text⟩) content).run before = .complete written := by
    rw [run, done]
    rfl
  exact ⟨written, ran, within', next written (grown.trans (grows_of_run ran))⟩

theorem copy (readable : (files.read? source).isSome = true)
    (there : (final.read? (directory.join ⟨text⟩)).isSome = true)
    (next : ∀ later, files.Grows later → (later.read? (directory.join ⟨text⟩)).isSome = true →
      Robust final later rest) :
    Robust final files (.copy coordinate source (directory.join ⟨text⟩) :: rest) := by
  intro before grown within
  obtain ⟨copied, done, within'⟩ := FileSystem.copy?_within (grown.isDirectory opened) name within
    there (grown.read? readable)
  have ran : (Step.copy coordinate source (directory.join ⟨text⟩)).run before = .complete copied := by
    rw [run, done]
    rfl
  obtain ⟨_, _, wrote⟩ := run_copy ran
  refine ⟨copied, ran, within', next copied (grown.trans (grows_of_run ran)) ?_⟩
  rw [wrote.read?]
  rfl

theorem checksum (readable : (files.read? path).isSome = true)
    (beside : checksumPath path = directory.join ⟨text⟩)
    (there : (final.read? (directory.join ⟨text⟩)).isSome = true)
    (next : ∀ later, files.Grows later → Robust final later rest) :
    Robust final files (.checksum path :: rest) := by
  intro before grown within
  obtain ⟨content, read⟩ := Option.isSome_iff_exists.mp (grown.read? readable)
  obtain ⟨written, done, within'⟩ := FileSystem.write?_within (grown.isDirectory opened) name within
    there (Digest.sha1 content).toUTF8
  have ran : (Step.checksum path).run before = .complete written := by
    simp only [run, read, beside, done]
    rfl
  exact ⟨written, ran, within', next written (grown.trans (grows_of_run ran))⟩

end Files

end Step.Robust

theorem Interleaving.completes (interleaved : Interleaving limit tasks order)
    (robust : ∀ task ∈ tasks, Step.Robust final files task) (within : files.Grows final) :
    ∃ after, Step.runAll files order = .complete after ∧ after.Grows final := by
  induction interleaved generalizing files with
  | done => exact ⟨files, rfl, within⟩
  | finish _ ih =>
      refine ih (fun task member => robust task ?_) within
      rcases List.mem_append.mp member with early | late
      · exact List.mem_append_left _ early
      · exact List.mem_append_right _ (List.mem_cons_of_mem _ late)
  | @next before after task order step _ _ ih =>
      obtain ⟨changed, ran, within', onwards⟩ :=
        robust (step :: task) (by simp) files (.refl files) within
      have grown := Step.grows_of_run ran
      -- what the other tasks were promised holds of the files that grew
      have others : ∀ other ∈ before ++ task :: after, Step.Robust final changed other := by
        intro other member
        rcases List.mem_append.mp member with early | late
        · exact (robust other (List.mem_append_left _ early)).grows grown
        · rcases List.mem_cons.mp late with rfl | late
          · exact onwards
          · refine (robust other ?_).grows grown
            exact List.mem_append_right _ (List.mem_cons_of_mem _ late)
      obtain ⟨last, rest, ended⟩ := ih others within'
      exact ⟨last, Step.runAll_cons.mpr ⟨changed, ran, rest⟩, ended⟩

namespace Step

/-- The place that a step reads from. -/
def source? (base : Location) : Step → Option Location
  | copy _ source _ => some (source.placeFrom base)
  | checksum path => some (path.placeFrom base)
  | _ => none

/-- What a step puts where it writes. -/
def value? (base : Location) (contents : Location → Option ByteArray) : Step → Option ByteArray
  | copy _ source target =>
      if source.placeFrom base = target.placeFrom base then some ByteArray.empty
      else contents (source.placeFrom base)
  | checksum path => (contents (path.placeFrom base)).map fun content => (Digest.sha1 content).toUTF8
  | write _ content => some content
  | _ => none

/-- The contents of all files behind a step. -/
def effect (base : Location) (contents : Location → Option ByteArray) (step : Step) :
    Location → Option ByteArray :=
  match step.place? base with
  | none => contents
  | some place => Function.update contents place (step.value? base contents)

theorem contentAt?_wrote {path : Path} {content : ByteArray} (wrote : files.Wrote path content after) :
    after.contentAt? =
      Function.update files.contentAt? (path.placeFrom files.workingDirectory) (some content) := by
  funext location
  rw [wrote.toPuts.contentAt?, Function.update_apply]
  rfl

theorem contentAt?_run_eq (ran : step.run files = .complete after) :
    after.contentAt? = step.effect files.workingDirectory files.contentAt? := by
  cases step with
  | makeDirectory path => exact funext (expands_of_run ran).contents
  | copy coordinate source target =>
      obtain ⟨content, read, wrote⟩ := run_copy ran
      have found : files.contentAt? (source.placeFrom files.workingDirectory) = some content :=
        (FileSystem.read?_eq_some.mp read).2
      rw [contentAt?_wrote wrote]
      refine congrArg (Function.update _ _) ?_
      rw [value?, found, apply_ite some]
      rfl
  | checksum path =>
      obtain ⟨content, read, wrote⟩ := run_checksum ran
      have found : files.contentAt? (path.placeFrom files.workingDirectory) = some content :=
        (FileSystem.read?_eq_some.mp read).2
      rw [contentAt?_wrote wrote]
      refine congrArg (Function.update _ _) ?_
      rw [value?, found]
      rfl
  | write path content =>
      rw [contentAt?_wrote (run_write ran)]
      rfl
  | refuse failure => cases ran

theorem contentAt?_runAll_eq (ran : runAll files steps = .complete after) :
    after.contentAt? = steps.foldl (effect files.workingDirectory) files.contentAt? := by
  induction steps generalizing files with
  | nil =>
      cases ran
      rfl
  | cons step rest ih =>
      obtain ⟨next, here, later⟩ := runAll_cons.mp ran
      rw [ih later, contentAt?_run_eq here, (grows_of_run here).workingDirectory]
      rfl

/-- Neither of two steps writes what the other one writes or reads. -/
structure Apart (base : Location) (left right : Step) : Prop where
  places : ∀ place ∈ left.place? base, place ∉ right.place? base
  behind : ∀ place ∈ left.place? base, place ∉ right.source? base
  before : ∀ place ∈ right.place? base, place ∉ left.source? base

theorem Apart.symm (apart : Apart base left right) : Apart base right left where
  places place here there := apart.places place there here
  behind := apart.before
  before := apart.behind

theorem value?_update {place : Location} {content : Option ByteArray}
    (unread : place ∉ step.source? base) :
    step.value? base (Function.update contents place content) = step.value? base contents := by
  cases step with
  | copy coordinate source target =>
      have different : source.placeFrom base ≠ place := by
        rintro rfl
        exact unread rfl
      simp only [value?, Function.update_of_ne different]
  | checksum path =>
      have different : path.placeFrom base ≠ place := by
        rintro rfl
        exact unread rfl
      simp only [value?, Function.update_of_ne different]
  | _ => rfl

theorem Apart.commute (apart : Apart base left right) (contents : Location → Option ByteArray) :
    right.effect base (left.effect base contents) = left.effect base (right.effect base contents) := by
  unfold effect
  cases here : left.place? base with
  | none => rfl
  | some place =>
      cases there : right.place? base with
      | none => rfl
      | some other =>
          have different : place ≠ other := by
            rintro rfl
            exact apart.places place here there
          simp only [value?_update (apart.behind place here), value?_update (apart.before other there)]
          exact Function.update_comm different _ _ _

end Step

/-- Tasks of which no step writes what a step of another one writes or reads. -/
def TasksApart (base : Location) (tasks : List (List Step)) : Prop :=
  tasks.Pairwise fun left right => ∀ step ∈ left, ∀ other ∈ right, Step.Apart base step other

namespace TasksApart

theorem sublist {fewer : List (List Step)} (apart : TasksApart base tasks)
    (among : fewer.Sublist tasks) : TasksApart base fewer :=
  List.Pairwise.sublist among apart

variable {earlier later : List (List Step)}
  (apart : TasksApart base (earlier ++ (step :: task) :: later))

include apart

/-- The next step of a task is apart from the tasks that started earlier. -/
theorem of_earlier : ∀ other ∈ earlier.flatten, Step.Apart base step other := by
  intro other member
  obtain ⟨running, listed, inside⟩ := List.mem_flatten.mp member
  have between := (List.pairwise_append.mp apart).2.2 running listed _ (List.mem_cons_self ..)
  exact (between other inside step (List.mem_cons_self ..)).symm

theorem tail : TasksApart base (earlier ++ task :: later) := by
  obtain ⟨early, late, between⟩ := List.pairwise_append.mp apart
  obtain ⟨first, late⟩ := List.pairwise_cons.mp late
  refine List.pairwise_append.mpr ⟨early, List.pairwise_cons.mpr ⟨?_, late⟩, ?_⟩
  · intro right listed step' inside
    exact first right listed step' (List.mem_cons_of_mem _ inside)
  · intro left listed right behind step' inside other there
    rcases List.mem_cons.mp behind with rfl | behind
    · exact between left listed _ (List.mem_cons_self ..) step' inside other
        (List.mem_cons_of_mem _ there)
    · exact between left listed right (List.mem_cons_of_mem _ behind) step' inside other there

end TasksApart

/-- Steps behind which another one may run as well as before them. -/
theorem foldl_effect_comm (apart : ∀ other ∈ steps, Step.Apart base step other)
    (contents : Location → Option ByteArray) :
    steps.foldl (Step.effect base) (step.effect base contents) =
      step.effect base (steps.foldl (Step.effect base) contents) := by
  induction steps generalizing contents with
  | nil => rfl
  | cons other rest ih =>
      have first : Step.Apart base step other := apart other (by simp)
      rw [List.foldl_cons, List.foldl_cons, first.commute]
      exact ih (fun later member => apart later (List.mem_cons_of_mem _ member)) _

/-- Tasks that are apart leave the same contents side by side as one after the other. -/
theorem Interleaving.foldl_effect (interleaved : Interleaving limit tasks order)
    (apart : TasksApart base tasks) (contents : Location → Option ByteArray) :
    order.foldl (Step.effect base) contents = tasks.flatten.foldl (Step.effect base) contents := by
  induction interleaved generalizing contents with
  | done => rfl
  | @finish before after order _ ih =>
      have fewer : (before ++ after).Sublist (before ++ [] :: after) :=
        (List.sublist_cons_self [] after).append_left before
      rw [ih (apart.sublist fewer)]
      simp
  | @next before after task order step _ _ ih =>
      -- the step comes before the tasks that started earlier, and might as well come behind them
      calc (step :: order).foldl (Step.effect base) contents
          = (before ++ task :: after).flatten.foldl (Step.effect base) (step.effect base contents) :=
            ih apart.tail _
        _ = (task ++ after.flatten).foldl (Step.effect base)
              (before.flatten.foldl (Step.effect base) (step.effect base contents)) := by simp
        _ = (task ++ after.flatten).foldl (Step.effect base)
              (step.effect base (before.flatten.foldl (Step.effect base) contents)) := by
            rw [foldl_effect_comm apart.of_earlier]
        _ = (before ++ (step :: task) :: after).flatten.foldl (Step.effect base) contents := by simp

theorem FileSystem.same_of_grows (forth : before.Grows after) (back : after.Grows before)
    (contents : before.contentAt? = after.contentAt?) : before.Same after := by
  refine ⟨forth.workingDirectory.symm, fun location => ?_⟩
  have here := congrFun contents location
  cases left : before.entryAt? location with
  | none =>
      cases right : after.entryAt? location with
      | none => rfl
      | some entry =>
          cases entry with
          | directory =>
              rw [back.directories location right] at left
              cases left
          | file content => simp [FileSystem.contentAt?, left, right] at here
  | some entry =>
      cases entry with
      | directory => exact (forth.directories location left).symm
      | file content =>
          rw [FileSystem.contentAt?_eq_some.mpr left] at here
          exact (FileSystem.contentAt?_eq_some.mp here.symm).symm

/-- Tasks that are apart, and robust towards whatever state some schedule of them ends in, end in that
state under every schedule. -/
theorem Interleaving.same {limit' : Nat} {order' : List Step}
    (apart : TasksApart files.workingDirectory tasks)
    (robust : ∀ limit order final, 0 < limit → Interleaving limit tasks order →
      Step.runAll files order = .complete final → ∀ task ∈ tasks, Step.Robust final files task)
    (positive : 0 < limit) (interleaved : Interleaving limit tasks order)
    (ran : Step.runAll files order = .complete final)
    (positive' : 0 < limit') (interleaved' : Interleaving limit' tasks order') :
    ∃ twin, Step.runAll files order' = .complete twin ∧ twin.Same final := by
  have within := Step.runAll_grows ran
  obtain ⟨twin, ran', before⟩ :=
    interleaved'.completes (robust limit order final positive interleaved ran) within
  have within' := Step.runAll_grows ran'
  obtain ⟨again, ran'', behind⟩ :=
    interleaved.completes (robust limit' order' twin positive' interleaved' ran') within'
  obtain rfl : final = again := congrArg Outcome.files (ran.symm.trans ran'')
  refine ⟨twin, ran', FileSystem.same_of_grows before behind ?_⟩
  rw [Step.contentAt?_runAll_eq ran', Step.contentAt?_runAll_eq ran,
    interleaved'.foldl_effect apart, interleaved.foldl_effect apart]

namespace Step

variable {directory path : Path}

/-- A step that makes nothing but what lies beneath a directory. -/
def Beneath (directory : Path) : Step → Prop
  | makeDirectory path => ∃ names, directory.Extends names path
  | step => ∀ target ∈ step.target?, ∃ names, names ≠ [] ∧ directory.Extends names target

theorem Beneath.of_target {names : List RawText} (writes : step.target? = some path) (inner : names ≠ [])
    (goesOn : directory.Extends names path) : step.Beneath directory := by
  have only : ∀ target ∈ step.target?, ∃ names, names ≠ [] ∧ directory.Extends names target := by
    intro target same
    obtain rfl := Option.some.inj (writes.symm.trans same)
    exact ⟨names, inner, goesOn⟩
  cases step with
  | makeDirectory other => cases writes
  | _ => exact only

theorem Beneath.target (beneath : step.Beneath directory) (writes : step.target? = some path) :
    ∃ names, names ≠ [] ∧ directory.Extends names path := by
  cases step with
  | makeDirectory other => cases writes
  | _ => exact beneath path writes

theorem Beneath.below (beneath : step.Beneath directory) (base : Location)
    (place : step.place? base = some location) : (directory.placeFrom base).Below location := by
  obtain ⟨path, writes, rfl⟩ := Option.map_eq_some_iff.mp place
  obtain ⟨names, inner, goesOn⟩ := beneath.target writes
  exact ⟨names, inner, goesOn.placeFrom base⟩

/-- A step that makes no directories but on the way down from one, by names that may be reached. -/
def Along (directory : Path) (reached : List RawText → Prop) : Step → Prop
  | makeDirectory path =>
      ∃ names, directory.Extends names path ∧ ∀ front, front ≠ [] → front <+: names → reached front
  | _ => True

theorem Beneath.along (beneath : step.Beneath directory) : step.Along directory (· ≠ []) := by
  cases step with
  | makeDirectory path =>
      obtain ⟨names, goesOn⟩ := beneath
      exact ⟨names, goesOn, fun _ inner _ => inner⟩
  | _ => trivial

variable {reached more : List RawText → Prop}

theorem Along.mono (along : step.Along directory reached) (wider : ∀ front, reached front → more front) :
    step.Along directory more := by
  cases step with
  | makeDirectory path =>
      obtain ⟨names, goesOn, fronts⟩ := along
      exact ⟨names, goesOn, fun front inner begins => wider front (fronts front inner begins)⟩
  | _ => trivial

theorem run_along (along : step.Along directory reached) (rooted : files.Rooted directory)
    (ran : step.run files = .complete after)
    (elsewhere : step.place? files.workingDirectory ≠ some location)
    (off : ∀ front, reached front → location ≠ files.destination directory ++ front) :
    after.entryAt? location = files.entryAt? location := by
  cases writes : step.target? with
  | some path =>
      obtain ⟨content, wrote⟩ := run_target ran writes
      rw [wrote.toPuts.entries, if_neg]
      rintro rfl
      exact elsewhere (by rw [place?, writes]; rfl)
  | none =>
      cases step with
      | makeDirectory path =>
          obtain ⟨names, goesOn, fronts⟩ := along
          have kept : (files.makeDirectories path).1.entryAt? location = files.entryAt? location :=
            FileSystem.makeNested_along rooted goesOn fun front inner begins =>
              off front (fronts front inner begins)
          rw [makeDirectory_ok.mp ran] at kept
          exact kept
      | refuse failure => cases ran
      | _ => cases writes

/-- Steps change nothing but the files that they name and the directories on the way to them. -/
theorem runAll_along (along : ∀ step ∈ steps, step.Along directory reached)
    (rooted : files.Rooted directory) (ran : runAll files steps = .complete after)
    (elsewhere : location ∉ places files.workingDirectory steps)
    (off : ∀ front, reached front → location ≠ files.destination directory ++ front) :
    after.entryAt? location = files.entryAt? location := by
  induction steps generalizing files with
  | nil =>
      cases ran
      rfl
  | cons step rest ih =>
      obtain ⟨first, later⟩ := List.forall_mem_cons.mp along
      obtain ⟨next, here, ran⟩ := runAll_cons.mp ran
      have grown := grows_of_run here
      have not : step.place? files.workingDirectory ≠ some location := fun place =>
        elsewhere (List.mem_filterMap.mpr ⟨step, List.mem_cons_self .., place⟩)
      have onwards : location ∉ places next.workingDirectory rest := by
        rw [grown.workingDirectory]
        intro there
        obtain ⟨other, member, place⟩ := List.mem_filterMap.mp there
        exact elsewhere (List.mem_filterMap.mpr ⟨other, List.mem_cons_of_mem _ member, place⟩)
      have off' : ∀ front, reached front → location ≠ next.destination directory ++ front := by
        rwa [grown.destination]
      rw [ih later (grown.rooted rooted) ran onwards off', run_along first rooted here not off]

/-- Steps beneath a directory change nothing outside of it. -/
theorem runAll_below (beneath : ∀ step ∈ steps, step.Beneath directory)
    (opened : files.isDirectory directory = true) (ran : runAll files steps = .complete after)
    (outside : ¬(files.destination directory).Below location) :
    after.entryAt? location = files.entryAt? location := by
  refine runAll_along (fun step member => (beneath step member).along) (.inl opened) ran ?_ ?_
  · intro there
    obtain ⟨step, member, place⟩ := List.mem_filterMap.mp there
    exact outside ((beneath step member).below _ place)
  · rintro front inner rfl
    exact outside ⟨front, inner, rfl⟩

end Step

end AppBundle
