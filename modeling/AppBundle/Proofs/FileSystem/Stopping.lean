import AppBundle.Proofs.FileSystem.Run

namespace AppBundle

/-! Runs that stop. Steps that are planned for items one after the other stop in the plan of one item,
with those of all earlier items complete. Where nothing else can stop them, they stop at a copy whose
source is not there, and leave what the steps in front of it made.
-/

namespace Step

variable {files middle after : FileSystem} {step : Step} {first rest steps : List Step}
  {failure : Failure}

theorem failed_or_complete (outcome : Outcome) :
    outcome.failure? ≠ none ∨ ∃ after, outcome = .complete after := by
  obtain ⟨files, stopped⟩ := outcome
  cases stopped with
  | none => exact .inr ⟨files, rfl⟩
  | some failure => exact .inl nofun

/-- A run of planned steps is complete, or it stops in the plan of an item. -/
theorem runAll_flatMap {α : Type} (files : FileSystem) (plan : α → List Step) (items : List α) :
    (∃ after, runAll files (items.flatMap plan) = .complete after) ∨
      ∃ before item later middle, items = before ++ item :: later ∧
        runAll files (before.flatMap plan) = .complete middle ∧
        (runAll middle (plan item)).failure? ≠ none ∧
        runAll files (items.flatMap plan) = runAll middle (plan item) := by
  induction items generalizing files with
  | nil => exact .inl ⟨files, rfl⟩
  | cons item rest ih =>
      rw [List.flatMap_cons, runAll_behind]
      rcases failed_or_complete (runAll files (plan item)) with stopped | ⟨next, here⟩
      · rw [if_neg stopped]
        exact .inr ⟨[], item, rest, files, rfl, rfl, stopped, rfl⟩
      · simp only [here, Outcome.complete, if_true]
        refine (ih next).imp_right ?_
        rintro ⟨before, stopper, later, middle, rfl, earlier, stopped, same⟩
        refine ⟨item :: before, stopper, later, middle, rfl, ?_, stopped, same⟩
        exact runAll_append.mpr ⟨next, here, earlier⟩

/-- A copy whose source is not there. -/
def LacksSource (files : FileSystem) : Step → Prop
  | copy _ source _ => files.read? source = none
  | _ => False

instance : Decidable (step.LacksSource files) :=
  match step with
  | copy _ source _ => inferInstanceAs (Decidable (files.read? source = none))
  | makeDirectory _ | checksum _ | write _ _ | refuse _ => .isFalse id

/-- Steps that nothing stops but a source that is not there. -/
def Unhindered : FileSystem → List Step → Prop
  | _, [] => True
  | files, step :: rest =>
      match step.run files with
      | ⟨changed, none⟩ => Unhindered changed rest
      | ⟨_, some _⟩ => step.LacksSource files

instance Unhindered.decidable : (files : FileSystem) → (steps : List Step) →
    Decidable (Unhindered files steps)
  | _, [] => .isTrue trivial
  | files, step :: rest =>
      match ran : step.run files with
      | ⟨changed, none⟩ =>
          have : Decidable (Unhindered changed rest) := Unhindered.decidable changed rest
          decidable_of_iff (Unhindered changed rest) (by rw [Unhindered, ran])
      | ⟨_, some _⟩ => decidable_of_iff (step.LacksSource files) (by rw [Unhindered, ran])

theorem unhindered_cons (ran : step.run files = .complete after) :
    Unhindered files (step :: rest) ↔ Unhindered after rest := by
  rw [Unhindered, ran]
  rfl

theorem Unhindered.cons (unhindered : Unhindered files (step :: rest)) :
    (∃ next, step.run files = .complete next ∧ Unhindered next rest) ∨ step.LacksSource files := by
  rcases failed_or_complete (step.run files) with stopped | ⟨next, ran⟩
  · refine .inr ?_
    rw [Unhindered] at unhindered
    split at unhindered
    · next complete => exact absurd (by rw [complete]) stopped
    · exact unhindered
  · exact .inl ⟨next, ran, (unhindered_cons ran).mp unhindered⟩

theorem Unhindered.behind (unhindered : Unhindered files (first ++ rest))
    (ran : runAll files first = .complete middle) : Unhindered middle rest := by
  induction first generalizing files with
  | nil =>
      cases ran
      exact unhindered
  | cons step first ih =>
      obtain ⟨next, here, later⟩ := runAll_cons.mp ran
      exact ih ((unhindered_cons here).mp unhindered) later

theorem Unhindered.front (unhindered : Unhindered files (first ++ rest)) : Unhindered files first := by
  induction first generalizing files with
  | nil => trivial
  | cons step first ih =>
      rw [List.cons_append, Unhindered] at unhindered
      rw [Unhindered]
      split at unhindered
      · next ran => simpa only [ran] using ih unhindered
      · next ran => simpa only [ran] using unhindered

-- what is unhindered is told by the lemmas above, and not by running the steps
attribute [irreducible] Unhindered

/-- Nothing stops steps that copy nothing. -/
theorem Unhindered.completes (unhindered : Unhindered files steps)
    (copyless : ∀ coordinate source target, .copy coordinate source target ∉ steps) :
    ∃ after, runAll files steps = .complete after := by
  induction steps generalizing files with
  | nil => exact ⟨files, rfl⟩
  | cons step rest ih =>
      rcases unhindered.cons with ⟨next, here, later⟩ | lacks
      · obtain ⟨after, ran⟩ := ih later fun coordinate source target member =>
          copyless coordinate source target (List.mem_cons_of_mem _ member)
        exact ⟨after, runAll_cons.mpr ⟨next, here, ran⟩⟩
      · cases step with
        | copy coordinate source target => exact absurd (List.mem_cons_self ..) (copyless _ _ _)
        | _ => exact lacks.elim

/-- A copy whose source is not there leaves everything as it is. -/
theorem run_copy_missing {coordinate : Coordinate} {source target : Path}
    (missing : files.read? source = none) :
    (copy coordinate source target).run files =
      ⟨files, some (.installation coordinate source target)⟩ := by
  rw [run, FileSystem.copy?, missing]
  rfl

end Step

end AppBundle
