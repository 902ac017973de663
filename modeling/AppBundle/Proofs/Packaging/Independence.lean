import AppBundle.Proofs.Packaging.Stages

namespace AppBundle

/-! Modules that depend on themselves. Building refuses them, which neither additional dependencies
nor merging does: a module comes to depend on itself exactly when a dependency that is declared for it
leads back to it, or when a merged model lists its own owner.
-/

namespace Application

/-- No module is among its own dependencies. -/
def Independent (application : Application) : Prop :=
  ∀ entry ∈ application.nested, ¬entry.2.dependencies.Holds entry.1.identity

instance (application : Application) : Decidable application.Independent :=
  inferInstanceAs (Decidable (∀ entry ∈ application.nested, _))

variable {application result : Application} {resolver : Resolver} {root : Graph}
  {concurrency : Nat} {files : FileSystem} {own : Option Path} {addition : Addition}
  {additions : List Addition} {policy : MergePolicy} {model : Model} {models : List Model}
  {group name : String} {target : Coordinate}

/-- The answers to module queries are checked while they are built. -/
theorem BuildsTo.independent (builds : BuildsTo resolver root concurrency (.ok application)) :
    application.Independent := by
  obtain ⟨order, completed, built⟩ := builds
  obtain ⟨_, nested⟩ := of_buildInOrder_ok completed.perm built.symm
  intro entry member held
  obtain ⟨module, _, resolved⟩ := (nested entry).mp member
  obtain ⟨answer, _, answers, rfl⟩ := resolveEntry_ok.mp resolved
  obtain ⟨artifact, inside, same⟩ := held
  have reached := Graph.mem_flatten.mp (DependencySet.of_mem_ofList inside)
  exact answers.independent artifact reached same

theorem Independent.introspect (independent : application.Independent)
    (introspected : application.introspect files own = .ok result) : result.Independent := by
  intro entry member held
  obtain ⟨before, listed, here⟩ := (introspect_ok introspected).2 entry.1 entry.2 member
  exact independent _ listed ((Model.holds_introspect here).mp held)

theorem independent_extend (extended : application.extend addition = .ok result) :
    result.Independent ↔ application.Independent ∧
      ∀ target, application.keyNamed? addition.group addition.name = some target →
        ∀ artifact ∈ addition.dependencies, artifact.identity ≠ target.identity := by
  obtain ⟨target, found, nested, _⟩ := extend_ok.mp extended
  have changed {key : Coordinate} {before : Model} (listed : (key, before) ∈ application.nested) :
      (key, if key.identity = target.identity then
        { before with dependencies := before.dependencies.insertAll addition.dependencies }
          else before) ∈ result.nested :=
    nested ▸ mem_insertInto.mpr ⟨before, listed, rfl⟩
  constructor
  · intro independent
    refine ⟨fun entry member held => independent _ (changed member) ?_, ?_⟩
    · dsimp only
      split
      · exact DependencySet.holds_insertAll.mpr (.inl held)
      · exact held
    · intro other named artifact member same
      obtain rfl := Option.some.inj (found.symm.trans named)
      obtain ⟨before, listed⟩ := mem_of_keyNamed? found
      have joined := independent _ (changed listed)
      rw [if_pos rfl] at joined
      exact joined (DependencySet.holds_insertAll.mpr (.inr ⟨artifact, member, same⟩))
  · intro apart entry member held
    obtain ⟨independent, elsewhere⟩ := apart
    rw [nested] at member
    obtain ⟨before, listed, same⟩ := mem_insertInto.mp member
    rw [same] at held
    split at held
    · next here =>
        rcases DependencySet.holds_insertAll.mp held with old | ⟨artifact, inside, back⟩
        · exact independent _ listed old
        · exact elsewhere target found artifact inside (back.trans here)
    · exact independent _ listed held

theorem independent_extendAll (extended : application.extendAll additions = .ok result) :
    result.Independent ↔ application.Independent ∧
      ∀ addition ∈ additions,
        ∀ target, application.keyNamed? addition.group addition.name = some target →
          ∀ artifact ∈ addition.dependencies, artifact.identity ≠ target.identity := by
  induction additions generalizing application with
  | nil =>
      cases extended
      simp
  | cons addition rest ih =>
      obtain ⟨next, here, later⟩ : ∃ next, application.extend addition = .ok next ∧
          next.extendAll rest = .ok result := bind_ok.mp extended
      rw [ih later, independent_extend here, List.forall_mem_cons, and_assoc]
      simp only [keyNamed?_extend here]

theorem independent_merge (merged : application.merge policy model = .ok result) :
    result.Independent ↔ application.Independent ∧ ¬model.dependencies.Holds model.owner.identity := by
  obtain ⟨target, found, _, nested, _⟩ := merge_ok.mp merged
  have same : target.identity = model.owner.identity := (DependencySet.find?_iff_mem.mp found).2
  rw [Independent, nested]
  simp only [mem_insertEntry, forall_eq_or_imp]
  rw [← same, and_comm]
  rfl

theorem independent_mergeAll (merged : application.mergeAll policy models = .ok result) :
    result.Independent ↔ application.Independent ∧
      ∀ model ∈ models, ¬model.dependencies.Holds model.owner.identity := by
  induction models generalizing application with
  | nil =>
      cases merged
      simp
  | cons model rest ih =>
      obtain ⟨next, here, later⟩ := mergeAll_cons.mp merged
      rw [ih later, independent_merge here, List.forall_mem_cons, and_assoc]

end Application

/-- A request brings along whatever its dependencies lead to, and these themselves. -/
def AdditionRequest.Brings (record : SnapshotRecord) (request : AdditionRequest)
    (identity : Identity) : Prop :=
  ∃ text ∈ request.dependencies, ∃ start reference, Coordinate.parse? text = some start ∧
    Leads record.edges [start] reference ∧ reference.identity = identity

namespace Packager

variable {record : SnapshotRecord} {repository : Path} {snapshot : Snapshot}

theorem artifact_reaches (loaded : Snapshot.ofRecord record repository = .ok snapshot)
    {start : Coordinate} {graph : Graph} (answered : snapshot.artifact start = .ok graph)
    {identity : Identity} :
    (∃ artifact, graph.Reaches artifact ∧ artifact.identity = identity) ↔
      ∃ reference, Leads record.edges [start] reference ∧ reference.identity = identity := by
  have closed := Snapshot.artifact_closure answered
  rw [(Snapshot.closure_valid closed).reaches_identity, Snapshot.direct_of_closure closed,
    ← Snapshot.edges_of_record loaded]
  simp only [Snapshot.closure_leads closed]

theorem resolveAddition_ok (loaded : Snapshot.ofRecord record repository = .ok snapshot)
    {request : AdditionRequest} {addition : Addition}
    (resolved : resolveAddition snapshot.resolver request = .ok addition) :
    addition.group = request.group ∧ addition.name = request.name ∧
      ∀ identity, (∃ artifact ∈ addition.dependencies, artifact.identity = identity) ↔
        request.Brings record identity := by
  obtain ⟨graphs, mapped, done⟩ := bind_ok.mp resolved
  cases done
  refine ⟨rfl, rfl, fun identity => DependencySet.holds_ofList.trans ?_⟩
  constructor
  · intro held
    obtain ⟨artifact, member, same⟩ := held
    obtain ⟨graph, listed, inside⟩ := List.mem_flatMap.mp member
    obtain ⟨text, asked, here⟩ := (mem_of_mapM_ok mapped).mp listed
    obtain ⟨start, parsed, answered⟩ := bind_ok.mp here
    obtain ⟨reference, led, back⟩ :=
      (artifact_reaches loaded answered).mp ⟨artifact, Graph.mem_flatten.mp inside, same⟩
    exact ⟨text, asked, start, reference, Coordinate.parse_ok.mp parsed, led, back⟩
  · intro brings
    obtain ⟨text, asked, start, reference, parsed, led, same⟩ := brings
    obtain ⟨graph, here⟩ := mapM_succeeds.mp ⟨graphs, mapped⟩ text asked
    obtain ⟨other, parsedAlso, answered⟩ := bind_ok.mp here
    have one := parsed.symm.trans (Coordinate.parse_ok.mp parsedAlso)
    obtain rfl := Option.some.inj one
    obtain ⟨artifact, reached, back⟩ := (artifact_reaches loaded answered).mpr ⟨reference, led, same⟩
    exact ⟨artifact, List.mem_flatMap.mpr ⟨graph, (mem_of_mapM_ok mapped).mpr ⟨text, asked, here⟩,
      Graph.mem_flatten.mpr reached⟩, back⟩

theorem independent_of_extend (loaded : Snapshot.ofRecord record repository = .ok snapshot)
    {configuration : Configuration} {application result : Application}
    (extended : Packager.extend ⟨snapshot.resolver, configuration⟩ application = .ok result) :
    result.Independent ↔ application.Independent ∧
      ∀ request ∈ configuration.additions,
        ∀ target, application.keyNamed? request.group request.name = some target →
          ¬request.Brings record target.identity := by
  obtain ⟨additions, mapped, extended⟩ := bind_ok.mp extended
  rw [Application.independent_extendAll extended]
  refine and_congr_right fun _ => ?_
  constructor
  · intro elsewhere request asked target found brings
    obtain ⟨addition, here⟩ := mapM_succeeds.mp ⟨additions, mapped⟩ request asked
    obtain ⟨group, name, brought⟩ := resolveAddition_ok loaded here
    rw [← group, ← name] at found
    obtain ⟨artifact, member, same⟩ := (brought _).mpr brings
    exact elsewhere addition ((mem_of_mapM_ok mapped).mpr ⟨request, asked, here⟩) target found
      artifact member same
  · intro elsewhere addition listed target found artifact member same
    obtain ⟨request, asked, here⟩ := (mem_of_mapM_ok mapped).mp listed
    obtain ⟨group, name, brought⟩ := resolveAddition_ok loaded here
    rw [group, name] at found
    exact elsewhere request asked target found ((brought _).mp ⟨artifact, member, same⟩)

/-- After building, and after introspection, no module depends on itself. Afterwards that is left to
the configuration: it stays so exactly when nothing that is declared for a module leads back to it, and
then exactly when no merged model lists its own owner, under either policy. -/
theorem independent_stages (loaded : Snapshot.ofRecord record repository = .ok snapshot)
    (configuration : Configuration) (files : FileSystem) :
    let packager : Packager := ⟨snapshot.resolver, configuration⟩
    ∀ built, packager.BuildsTo (.ok built) → built.Independent ∧
      ∀ introspected, packager.introspect files built = .ok introspected →
        introspected.Independent ∧
          ∀ extended, packager.extend introspected = .ok extended →
            (extended.Independent ↔ ∀ request ∈ configuration.additions,
              ∀ target, introspected.keyNamed? request.group request.name = some target →
                ¬request.Brings record target.identity) ∧
            ∀ merged, packager.merge files extended = .ok merged →
              (merged.Independent ↔ extended.Independent ∧
                ∀ path ∈ configuration.nestedModels,
                  ∀ model, loadNested files configuration.placeholder path = .ok model →
                    ¬model.dependencies.Holds model.owner.identity) := by
  intro packager built builds
  obtain ⟨_, _, _, _, builds⟩ := builds.ok
  have independent := builds.independent
  refine ⟨independent, fun introspected here => ?_⟩
  have introspectedToo : introspected.Independent := by
    unfold Packager.introspect at here
    split at here
    · exact independent.introspect here
    · cases here
      exact independent
  refine ⟨introspectedToo, fun extended here => ⟨?_, fun merged here => ?_⟩⟩
  · rw [independent_of_extend loaded here, and_iff_right introspectedToo]
  · obtain ⟨models, mapped, merging⟩ := bind_ok.mp here
    rw [Application.independent_mergeAll merging]
    refine and_congr_right fun _ => ?_
    constructor
    · intro apart path listed model read
      exact apart model ((mem_of_mapM_ok mapped).mpr ⟨path, listed, read⟩)
    · intro apart model listed
      obtain ⟨path, asked, read⟩ := (mem_of_mapM_ok mapped).mp listed
      exact apart path asked model read

/-- A model that lists its own owner is merged; its descriptor is written as lists of fields. -/
theorem independent_stages_merged :
    let record : SnapshotRecord :=
      { root := "g:app:1"
        dependencies := ["g:sub:1"]
        nodes := [⟨"g:sub:1", none, none, []⟩] }
    let descriptor := "[\"1\",[\"g\",\"sub\",\"1\"],[[[\"g\",\"sub\",\"1\"],\"sub.jar\"]]]"
    let configuration : Configuration :=
      { Configuration.default with nestedModels := [⟨"sub/model.json"⟩] }
    let files := FileSystem.empty.place ⟨"sub/model.json"⟩ descriptor.toUTF8
    ∃ snapshot built introspected extended merged,
      Snapshot.ofRecord record ⟨"/m2"⟩ = .ok snapshot ∧
        let packager : Packager := ⟨snapshot.resolver, configuration⟩
        packager.BuildsTo (.ok built) ∧ packager.introspect files built = .ok introspected ∧
          packager.extend introspected = .ok extended ∧ packager.merge files extended = .ok merged ∧
            extended.Independent ∧ ¬merged.Independent := by
  intro record descriptor configuration files
  let read := loadNested files configuration.placeholder ⟨"sub/model.json"⟩
  have succeeds : (do
      let snapshot ← Snapshot.ofRecord record ⟨"/m2"⟩
      let packager : Packager := ⟨snapshot.resolver, configuration⟩
      let built ← packager.build
      let introspected ← packager.introspect files built
      let extended ← packager.extend introspected
      packager.merge files extended : Except Failure Application).isOk = true := by
    decide +kernel
  have looped : (read.map fun model =>
      decide (model.dependencies.Holds model.owner.identity)) = .ok true := by
    decide +kernel
  obtain ⟨merged, ran⟩ := exists_ok succeeds
  obtain ⟨snapshot, loaded, ran⟩ := bind_ok.mp ran
  obtain ⟨built, builds, ran⟩ := bind_ok.mp ran
  obtain ⟨introspected, here, ran⟩ := bind_ok.mp ran
  obtain ⟨extended, there, merges⟩ := bind_ok.mp ran
  obtain ⟨model, found, loop⟩ := map_ok.mp looped
  have started : Packager.BuildsTo ⟨snapshot.resolver, configuration⟩ (.ok built) :=
    builds ▸ build_buildsTo
  obtain ⟨extension, merging⟩ :=
    ((independent_stages loaded configuration files built started).2 introspected here).2 extended there
  refine ⟨snapshot, built, introspected, extended, merged, loaded, started, here, there, merges,
    extension.mpr (fun _ none => absurd none List.not_mem_nil), fun independent => ?_⟩
  exact ((merging merged merges).mp independent).2 _ (List.mem_singleton_self _) model found
    (of_decide_eq_true loop)

/-- A driver that is declared for a module leads back to it, and no stage refuses that. -/
theorem independent_stages_led_back :
    let record : SnapshotRecord :=
      { root := "g:app:1"
        dependencies := ["g:p:1:jar:mule-plugin"]
        nodes :=
          [⟨"g:p:1:jar:mule-plugin", none, none, []⟩,
            ⟨"g:driver:1", none, none, ["g:p:1:jar:mule-plugin"]⟩] }
    let configuration : Configuration :=
      { Configuration.default with additions := [⟨"g", "p", ["g:driver:1"]⟩] }
    ∃ snapshot built introspected extended merged,
      Snapshot.ofRecord record ⟨"/m2"⟩ = .ok snapshot ∧
        let packager : Packager := ⟨snapshot.resolver, configuration⟩
        packager.BuildsTo (.ok built) ∧ built.Independent ∧
          packager.introspect .empty built = .ok introspected ∧
            packager.extend introspected = .ok extended ∧ ¬extended.Independent ∧
              packager.merge .empty extended = .ok merged ∧ ¬merged.Independent := by
  intro record configuration
  have succeeds : (do
      let snapshot ← Snapshot.ofRecord record ⟨"/m2"⟩
      let packager : Packager := ⟨snapshot.resolver, configuration⟩
      let built ← packager.build
      let introspected ← packager.introspect .empty built
      let extended ← packager.extend introspected
      let merged ← packager.merge .empty extended
      return [built, extended, merged].map (decide ·.Independent) : Except Failure (List Bool)) =
        .ok [true, false, false] := by
    decide +kernel
  obtain ⟨snapshot, loaded, ran⟩ := bind_ok.mp succeeds
  obtain ⟨built, builds, ran⟩ := bind_ok.mp ran
  obtain ⟨introspected, here, ran⟩ := bind_ok.mp ran
  obtain ⟨extended, there, ran⟩ := bind_ok.mp ran
  obtain ⟨merged, merges, ran⟩ := bind_ok.mp ran
  have verdicts := Except.ok.inj ran
  simp only [List.map_cons, List.map_nil, List.cons.injEq, decide_eq_true_eq,
    decide_eq_false_iff_not] at verdicts
  obtain ⟨independent, looped, mergedToo, _⟩ := verdicts
  exact ⟨snapshot, built, introspected, extended, merged, loaded, builds ▸ build_buildsTo,
    independent, here, there, looped, merges, mergedToo⟩

end Packager

end AppBundle
