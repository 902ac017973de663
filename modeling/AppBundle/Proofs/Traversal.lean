import Mathlib.Data.List.Nodup

namespace AppBundle

/-! Lists with distinct keys, which are looked up without regard to order, and traversals that stop
at the first failure.
-/

section Keys

variable {α κ : Type} [DecidableEq κ] {items : List α} {item : α}

theorem find?_key_iff_mem (key : α → κ) (distinct : items.Pairwise (key · ≠ key ·)) {sought : κ} :
    items.find? (fun item => decide (key item = sought)) = some item ↔
      item ∈ items ∧ key item = sought := by
  constructor
  · intro found
    exact ⟨List.mem_of_find?_eq_some found, by simpa using List.find?_some found⟩
  · intro matching
    obtain ⟨member, same⟩ := matching
    cases found : items.find? (fun item => decide (key item = sought)) with
    | none =>
        have absent := List.find?_eq_none.mp found item member
        simp [same] at absent
    | some other =>
        have otherKey : key other = sought := by simpa using List.find?_some found
        have equal := List.inj_on_of_nodup_map (List.pairwise_map.mpr distinct)
          (List.mem_of_find?_eq_some found) member (otherKey.trans same.symm)
        rw [equal]

end Keys

/-- Searches for agreeing tests in related lists end at related items. -/
theorem find?_forall₂ {α β : Type} {related : α → β → Prop} {items : List α} {others : List β}
    {test : α → Bool} {otherTest : β → Bool} (pairs : List.Forall₂ related items others)
    (agree : ∀ item other, related item other → test item = otherTest other) :
    items.find? test = none ∧ others.find? otherTest = none ∨
      ∃ item other, related item other ∧ items.find? test = some item ∧
        others.find? otherTest = some other := by
  induction pairs with
  | nil => exact .inl ⟨rfl, rfl⟩
  | @cons item other _ _ here _ ih =>
      rw [List.find?_cons, List.find?_cons, agree item other here]
      cases otherTest other with
      | true => exact .inr ⟨item, other, here, rfl, rfl⟩
      | false => exact ih

section Attempts

variable {ε α β : Type} {failure : ε}

theorem exists_ok {attempt : Except ε α} (succeeds : attempt.isOk = true) :
    ∃ value, attempt = .ok value := by
  cases attempt with
  | error _ => contradiction
  | ok value => exact ⟨value, rfl⟩

theorem bind_ok {first : Except ε α} {next : α → Except ε β} {result : β} :
    (first >>= next) = .ok result ↔ ∃ value, first = .ok value ∧ next value = .ok result := by
  cases first <;> simp [bind, Except.bind]

theorem bind_error {first : Except ε α} {next : α → Except ε β} :
    (first >>= next) = .error failure ↔
      first = .error failure ∨ ∃ value, first = .ok value ∧ next value = .error failure := by
  cases first <;> simp [bind, Except.bind]

theorem map_ok {first : Except ε α} {change : α → β} {result : β} :
    first.map change = .ok result ↔ ∃ value, first = .ok value ∧ change value = result := by
  cases first <;> simp [Except.map]

theorem map_error {first : Except ε α} {change : α → β} :
    first.map change = .error failure ↔ first = .error failure := by
  cases first <;> simp [Except.map]

theorem map_bind {γ : Type} {first : Except ε α} {next : α → Except ε β} {change : β → γ} :
    (first >>= next).map change = first >>= fun value => (next value).map change := by
  cases first <;> rfl

theorem bind_of_map {γ : Type} {first : Except ε α} {change : α → γ} {next : γ → Except ε β} :
    first.map change >>= next = first >>= fun value => next (change value) := by
  cases first <;> rfl

variable {action : α → Except ε β} {items : List α}

/-- A change of every result of a traversal, made one by one. -/
theorem map_mapM {γ : Type} {change : β → γ} {changed : α → Except ε γ}
    (each : ∀ item ∈ items, (action item).map change = changed item) :
    (items.mapM action).map (List.map change) = items.mapM changed := by
  induction items with
  | nil => rfl
  | cons item rest ih =>
      obtain ⟨here, later⟩ := List.forall_mem_cons.mp each
      rw [List.mapM_cons, List.mapM_cons, ← here, ← ih later]
      cases action item with
      | error failure => rfl
      | ok result => cases rest.mapM action <;> rfl

theorem mapM_ok {results : List β} :
    items.mapM action = .ok results ↔
      List.Forall₂ (fun item result => action item = .ok result) items results := by
  induction items generalizing results with
  | nil =>
      rw [List.mapM_nil, List.forall₂_nil_left_iff]
      exact ⟨fun same => (Except.ok.inj same).symm, fun same => same ▸ rfl⟩
  | cons item rest ih =>
      rw [List.mapM_cons, bind_ok, List.forall₂_cons_left_iff]
      constructor
      · intro mapped
        obtain ⟨result, here, later⟩ := mapped
        obtain ⟨others, rest, same⟩ := bind_ok.mp later
        exact ⟨result, others, here, ih.mp rest, (Except.ok.inj same).symm⟩
      · intro pairs
        obtain ⟨result, others, here, rest, rfl⟩ := pairs
        exact ⟨result, here, bind_ok.mpr ⟨others, ih.mpr rest, rfl⟩⟩

theorem mapM_succeeds :
    (∃ results, items.mapM action = .ok results) ↔
      ∀ item ∈ items, ∃ result, action item = .ok result := by
  induction items with
  | nil => exact ⟨fun _ _ member => absurd member List.not_mem_nil, fun _ => ⟨[], rfl⟩⟩
  | cons item rest ih =>
      rw [List.forall_mem_cons, ← ih]
      constructor
      · intro succeeded
        obtain ⟨results, mapped⟩ := succeeded
        rw [List.mapM_cons] at mapped
        obtain ⟨result, here, later⟩ := bind_ok.mp mapped
        obtain ⟨others, rest, _⟩ := bind_ok.mp later
        exact ⟨⟨result, here⟩, others, rest⟩
      · intro succeeded
        obtain ⟨⟨result, here⟩, others, rest⟩ := succeeded
        exact ⟨result :: others, by rw [List.mapM_cons, here, rest]; rfl⟩

theorem mem_of_mapM_ok {results : List β} (mapped : items.mapM action = .ok results) {result : β} :
    result ∈ results ↔ ∃ item ∈ items, action item = .ok result := by
  induction mapM_ok.mp mapped with
  | nil => simp
  | cons here pairs ih =>
      rw [List.mem_cons, ih (mapM_ok.mpr pairs), List.exists_mem_cons_iff, here, Except.ok.injEq,
        eq_comm]

theorem map_of_mapM_ok {results : List β} (mapped : items.mapM action = .ok results) {view : β → α}
    (keeps : ∀ item result, action item = .ok result → view result = item) :
    results.map view = items := by
  induction mapM_ok.mp mapped with
  | nil => rfl
  | cons here pairs ih => rw [List.map_cons, keeps _ _ here, ih (mapM_ok.mpr pairs)]

/-- A traversal fails with the failure of the first item that has one. -/
theorem mapM_error :
    items.mapM action = .error failure ↔
      ∃ before item after, items = before ++ item :: after ∧
        (∀ earlier ∈ before, ∃ result, action earlier = .ok result) ∧
          action item = .error failure := by
  induction items with
  | nil =>
      constructor
      · intro failed
        cases failed
      · intro stopped
        obtain ⟨before, item, after, same, _⟩ := stopped
        simp at same
  | cons first rest ih =>
      rw [List.mapM_cons, bind_error]
      constructor
      · intro failed
        rcases failed with here | ⟨result, here, later⟩
        · exact ⟨[], first, rest, rfl, fun _ member => absurd member List.not_mem_nil, here⟩
        · rcases bind_error.mp later with failed | ⟨others, _, done⟩
          · obtain ⟨before, item, after, rfl, passed, stopped⟩ := ih.mp failed
            exact ⟨first :: before, item, after, rfl,
              List.forall_mem_cons.mpr ⟨⟨result, here⟩, passed⟩, stopped⟩
          · cases done
      · intro stopping
        obtain ⟨before, item, after, same, passed, stopped⟩ := stopping
        cases before with
        | nil =>
            obtain ⟨rfl, rfl⟩ := List.cons.inj same
            exact .inl stopped
        | cons earlier before =>
            obtain ⟨rfl, rfl⟩ := List.cons.inj same
            obtain ⟨⟨result, here⟩, others⟩ := List.forall_mem_cons.mp passed
            exact .inr ⟨result, here,
              bind_error.mpr (.inl (ih.mpr ⟨before, item, after, rfl, others, stopped⟩))⟩

theorem forM_ok {check : α → Except ε Unit} :
    items.forM check = .ok () ↔ ∀ item ∈ items, check item = .ok () := by
  induction items with
  | nil => exact ⟨fun _ _ member => absurd member List.not_mem_nil, fun _ => rfl⟩
  | cons item rest ih =>
      rw [List.forall_mem_cons, ← ih]
      exact bind_ok.trans
        ⟨fun ⟨_, here, later⟩ => ⟨here, later⟩, fun ⟨here, later⟩ => ⟨(), here, later⟩⟩

theorem forM_map {γ : Type} {change : α → γ} {check : γ → Except ε Unit}
    {checkBefore : α → Except ε Unit}
    (each : ∀ item ∈ items, check (change item) = checkBefore item) :
    (items.map change).forM check = items.forM checkBefore := by
  induction items with
  | nil => rfl
  | cons item rest ih =>
      obtain ⟨here, later⟩ := List.forall_mem_cons.mp each
      change (check (change item) >>= fun _ => (rest.map change).forM check) = _
      rw [here, ih later]
      rfl

theorem forM_error {check : α → Except ε Unit} (failed : items.forM check = .error failure) :
    ∃ item ∈ items, check item = .error failure := by
  induction items with
  | nil => cases failed
  | cons item rest ih =>
      rcases bind_error.mp failed with here | ⟨_, _, later⟩
      · exact ⟨item, List.mem_cons_self .., here⟩
      · obtain ⟨other, member, stopped⟩ := ih later
        exact ⟨other, List.mem_cons_of_mem _ member, stopped⟩

/-- A fold fails at a first item, with the failure of that item's step. -/
theorem foldlM_error {step : β → α → Except ε β} {start : β} :
    items.foldlM step start = .error failure ↔
      ∃ before item after state, items = before ++ item :: after ∧
        before.foldlM step start = .ok state ∧ step state item = .error failure := by
  induction items generalizing start with
  | nil =>
      constructor
      · intro failed
        cases failed
      · intro stopped
        obtain ⟨before, item, after, _, same, _⟩ := stopped
        simp at same
  | cons first rest ih =>
      rw [List.foldlM_cons, bind_error]
      constructor
      · intro failed
        rcases failed with here | ⟨next, here, later⟩
        · exact ⟨[], first, rest, start, rfl, rfl, here⟩
        · obtain ⟨before, item, after, state, rfl, passed, stopped⟩ := ih.mp later
          refine ⟨first :: before, item, after, state, rfl, ?_, stopped⟩
          rw [List.foldlM_cons]
          exact bind_ok.mpr ⟨next, here, passed⟩
      · intro stopping
        obtain ⟨before, item, after, state, same, passed, stopped⟩ := stopping
        cases before with
        | nil =>
            cases passed
            obtain ⟨rfl, rfl⟩ := List.cons.inj same
            exact .inl stopped
        | cons earlier before =>
            obtain ⟨rfl, rfl⟩ := List.cons.inj same
            rw [List.foldlM_cons] at passed
            obtain ⟨next, here, later⟩ := bind_ok.mp passed
            exact .inr ⟨next, here, ih.mpr ⟨before, item, after, state, rfl, later, stopped⟩⟩

/-- What holds of the start and is kept by each item holds of the result. -/
theorem foldlM_keeps {kept : β → Prop} {step : β → α → Except ε β} {start result : β}
    (keeps : ∀ state, kept state → ∀ item ∈ items, ∀ next, step state item = .ok next → kept next)
    (holds : kept start) (folded : items.foldlM step start = .ok result) : kept result := by
  induction items generalizing start with
  | nil =>
      cases folded
      exact holds
  | cons item rest ih =>
      rw [List.foldlM_cons] at folded
      obtain ⟨next, here, later⟩ := bind_ok.mp folded
      refine ih ?_ ?_ later
      · intro state before other member
        exact keeps state before other (List.mem_cons_of_mem _ member)
      · exact keeps start holds item (List.mem_cons_self ..) next here

end Attempts

end AppBundle
