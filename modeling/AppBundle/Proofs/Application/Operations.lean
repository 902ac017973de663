import AppBundle.Application.Extend
import AppBundle.Contents
import AppBundle.Proofs.Application.Nested
import AppBundle.Proofs.Traversal

namespace AppBundle

/-! What introspection and additional dependencies do to an application, model by model. Neither
changes a key or an owner. Introspection changes what an artifact exports and nothing else, and an
addition puts artifacts into the nested model of one key.
-/

section Introspection

variable {files : FileSystem} {own : Option Path} {artifact : Artifact} {model : Model}
  {identity : Identity}

theorem Artifact.introspect_ok {result : Artifact}
    (introspected : artifact.introspect files = .ok result) :
    result.coordinate = artifact.coordinate ∧ result.location = artifact.location := by
  unfold Artifact.introspect at introspected
  split at introspected
  · cases introspected
    exact ⟨rfl, rfl⟩
  · split at introspected
    · obtain ⟨_, _, rfl⟩ := map_ok.mp introspected
      exact ⟨rfl, rfl⟩
    · cases introspected
      exact ⟨rfl, rfl⟩

variable {result : Model}

theorem Model.introspect_ok (introspected : model.introspect files own = .ok result) :
    result.owner = model.owner ∧ result.additions = model.additions ∧
      ∃ artifacts, model.dependencies.artifacts.mapM (·.introspect files) = .ok artifacts ∧
        result.dependencies = .ofList artifacts := by
  obtain ⟨artifacts, mapped, done⟩ := bind_ok.mp introspected
  cases own with
  | none =>
      cases done
      exact ⟨rfl, rfl, artifacts, mapped, rfl⟩
  | some output =>
      obtain ⟨_, _, rfl⟩ := map_ok.mp done
      exact ⟨rfl, rfl, artifacts, mapped, rfl⟩

theorem Model.mem_introspect (introspected : model.introspect files own = .ok result)
    (member : artifact ∈ result.dependencies.artifacts) :
    ∃ before ∈ model.dependencies.artifacts, before.introspect files = .ok artifact := by
  obtain ⟨_, _, artifacts, mapped, same⟩ := Model.introspect_ok introspected
  rw [same] at member
  exact (mem_of_mapM_ok mapped).mp (DependencySet.of_mem_ofList member)

theorem Model.holds_introspect (introspected : model.introspect files own = .ok result) :
    result.dependencies.Holds identity ↔ model.dependencies.Holds identity := by
  obtain ⟨_, _, artifacts, mapped, same⟩ := Model.introspect_ok introspected
  rw [same, DependencySet.holds_ofList]
  constructor
  · intro held
    obtain ⟨artifact, member, rfl⟩ := held
    obtain ⟨before, listed, here⟩ := (mem_of_mapM_ok mapped).mp member
    exact ⟨before, listed, congrArg Coordinate.identity (Artifact.introspect_ok here).1.symm⟩
  · intro held
    obtain ⟨before, listed, rfl⟩ := held
    obtain ⟨artifact, here⟩ := mapM_succeeds.mp ⟨artifacts, mapped⟩ before listed
    exact ⟨artifact, (mem_of_mapM_ok mapped).mpr ⟨before, listed, here⟩,
      congrArg Coordinate.identity (Artifact.introspect_ok here).1⟩

end Introspection

namespace Application

variable {application result : Application} {key target : Coordinate} {model : Model}
  {artifacts : List Artifact} {addition : Addition} {files : FileSystem} {own : Option Path}
  {group name : String}

theorem introspect_ok (introspected : application.introspect files own = .ok result) :
    application.root.introspect files own = .ok result.root ∧
      ∀ key model, (key, model) ∈ result.nested →
        ∃ before, (key, before) ∈ application.nested ∧ before.introspect files none = .ok model := by
  obtain ⟨root, rooted, folded⟩ := bind_ok.mp introspected
  -- what is collected so far has the new root, and its entries come from those of the application
  let kept (so : Application) : Prop :=
    so.root = root ∧ ∀ key model, (key, model) ∈ so.nested →
      ∃ before, (key, before) ∈ application.nested ∧ before.introspect files none = .ok model
  have keeps : kept result := by
    refine foldlM_keeps ?_ ⟨rfl, fun _ _ member => absurd member List.not_mem_nil⟩ folded
    intro so before entry listed next stepped
    obtain ⟨changed, here, inserted⟩ := bind_ok.mp stepped
    obtain ⟨_, sameRoot, nested⟩ := insertNested_ok inserted
    refine ⟨sameRoot.trans before.1, fun key model member => ?_⟩
    rw [nested, mem_insertEntry] at member
    rcases member with new | old
    · cases new
      exact ⟨entry.2, listed, here⟩
    · exact before.2 key model old
  obtain ⟨sameRoot, nested⟩ := keeps
  exact ⟨sameRoot ▸ rooted, nested⟩

theorem mem_insertInto :
    (key, model) ∈ (application.insertInto target artifacts).nested ↔
      ∃ before, (key, before) ∈ application.nested ∧
        model = if key.identity = target.identity then
          { before with dependencies := before.dependencies.insertAll artifacts } else before := by
  rw [insertInto, mapNested, List.mem_map]
  constructor
  · intro changed
    obtain ⟨⟨_, before⟩, member, same⟩ := changed
    cases same
    exact ⟨before, member, rfl⟩
  · intro changed
    obtain ⟨before, member, rfl⟩ := changed
    exact ⟨(key, before), member, rfl⟩

/-- An addition needs a module of its name; its artifacts join that module, and it is recorded. -/
theorem extend_ok :
    application.extend addition = .ok result ↔
      ∃ target, application.keyNamed? addition.group addition.name = some target ∧
        result.nested = (application.insertInto target addition.dependencies).nested ∧
        result.root = { application.root with
          additions := application.root.additions ++
            [{ addition with
              dependencies := (DependencySet.ofList addition.dependencies).artifacts }] } := by
  unfold extend
  cases application.keyNamed? addition.group addition.name with
  | none => simp
  | some target =>
      simp only [Except.ok.injEq, Option.some.injEq, exists_eq_left']
      constructor
      · rintro rfl
        exact ⟨rfl, rfl⟩
      · intro parts
        exact eq_of_parts parts.2.symm parts.1.symm

theorem mem_of_keyNamed? (found : application.keyNamed? group name = some target) :
    ∃ model, (target, model) ∈ application.nested := by
  obtain ⟨⟨_, model⟩, first, rfl⟩ := Option.map_eq_some_iff.mp found
  exact ⟨model, List.mem_of_find?_eq_some first⟩

/-- Which module a name means does not depend on what is in the models. -/
theorem keyNamed?_extend (extended : application.extend addition = .ok result) :
    result.keyNamed? group name = application.keyNamed? group name := by
  obtain ⟨target, _, nested, _⟩ := extend_ok.mp extended
  rw [keyNamed?, nested, insertInto, mapNested, List.find?_map, Option.map_map]
  rfl

end Application

end AppBundle
