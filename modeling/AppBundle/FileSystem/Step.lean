import AppBundle.Digest.Sha1
import AppBundle.Failure
import AppBundle.FileSystem.Basic

namespace AppBundle

/-!
Steps that write a bundle. Steps are planned ahead and run one after the other up to the first that
fails; what the earlier ones wrote stays. A task is a list of steps, and tasks that run side by side
are some interleaving of their steps.
-/

inductive Step where
  | makeDirectory (path : Path)
  | copy (coordinate : Coordinate) (source target : Path)
  /-- Writes the digest of a file beside it. -/
  | checksum (path : Path)
  | write (path : Path) (content : ByteArray)
  /-- Ends the task. -/
  | refuse (failure : Failure)
deriving DecidableEq

/-- How far some steps came: the file system they left, and the failure that stopped them. -/
structure Outcome where
  files : FileSystem
  failure? : Option Failure
deriving DecidableEq

namespace Outcome

def complete (files : FileSystem) : Outcome := ⟨files, none⟩

/-- The answer of a task, where its steps are complete. -/
def answer {α : Type} (outcome : Outcome) (value : α) : Except Failure α :=
  match outcome.failure? with
  | none => .ok value
  | some failure => .error failure

end Outcome

/-- The file beside another one that holds its digest. -/
def checksumPath (path : Path) : Path :=
  ⟨path.text ++ ".sha1"⟩

namespace Step

/-- A change that may fail and then changes nothing. -/
def attempt (files : FileSystem) (changed? : Option FileSystem) (failure : Failure) : Outcome :=
  match changed? with
  | some changed => .complete changed
  | none => ⟨files, some failure⟩

def run (files : FileSystem) : Step → Outcome
  | makeDirectory path =>
      let (made, complete) := files.makeDirectories path
      ⟨made, if complete then none else some (.file path)⟩
  | copy coordinate source target =>
      attempt files (files.copy? source target) (.installation coordinate source target)
  | checksum path =>
      match files.read? path with
      | none => ⟨files, some (.file path)⟩
      | some content =>
          attempt files (files.write? (checksumPath path) (Digest.sha1 content).toUTF8)
            (.file (checksumPath path))
  | write path content => attempt files (files.write? path content) (.file path)
  | refuse failure => ⟨files, some failure⟩

theorem makeDirectory_ok {files after : FileSystem} {path : Path} :
    (makeDirectory path).run files = .complete after ↔
      files.makeDirectories path = (after, true) := by
  rw [run]
  generalize files.makeDirectories path = outcome
  obtain ⟨made, complete⟩ := outcome
  cases complete with
  | true => simp [Outcome.complete]
  | false => simp [Outcome.complete]

def runAll (files : FileSystem) : List Step → Outcome
  | [] => .complete files
  | step :: rest =>
      match step.run files with
      | ⟨changed, none⟩ => runAll changed rest
      | stopped => stopped

end Step

/-- The orders in which the steps of tasks can run when at most `limit` tasks are under way at a time.
Tasks start in the order of the list, so that the next step belongs to one of the first `limit` tasks
that are not finished. -/
inductive Interleaving (limit : Nat) : List (List Step) → List Step → Prop where
  | done : Interleaving limit [] []
  | finish {before after : List (List Step)} {order : List Step}
      (rest : Interleaving limit (before ++ after) order) :
      Interleaving limit (before ++ [] :: after) order
  | next {before after : List (List Step)} {task order : List Step} {step : Step}
      (running : before.length < limit)
      (rest : Interleaving limit (before ++ task :: after) order) :
      Interleaving limit (before ++ (step :: task) :: after) (step :: order)

/-- Compares a file with the digest beside it; blanks around the digest do not matter. -/
def verifyChecksum (files : FileSystem) (path : Path) : Except Failure Bool :=
  match files.readText? (checksumPath path) with
  | none => .error (.file (checksumPath path))
  | some expected =>
      match files.read? path with
      | none => .error (.file path)
      | some content => .ok (Digest.sha1 content == Text.trim expected)

end AppBundle
