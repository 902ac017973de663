import AppBundle.Graph.Sharing
import AppBundle.Proofs.Graph.Walk
import AppBundle.Proofs.Traversal

namespace AppBundle

/-! Sharing marks exactly what the declared libraries lead to. A mark changes neither keys nor
edges, so that marks already made do not disturb the walks of the libraries that follow.
-/

namespace Graph

variable {graph marked : Graph} {libraries others : List SharedLibrary} {library : SharedLibrary}
  {starts : List Coordinate} {node : Node}

/-- Some direct dependency has the group and the name of a library. -/
def Declares (graph : Graph) (library : SharedLibrary) : Prop :=
  ∃ target ∈ graph.direct, target.isNamed library.group library.name = true

/-- A node that some declared library leads to, or that is one. -/
def Shares (graph : Graph) (libraries : List SharedLibrary) (node : Node) : Prop :=
  ∃ library ∈ libraries, ∃ start,
    graph.findDirect? library.group library.name = some start ∧ graph.nodes.Reached [start] node

/-- The graph that is left when exactly what some libraries lead to has been marked. -/
structure MarkedFrom (graph : Graph) (libraries : List SharedLibrary) (marked : Graph) : Prop where
  owner : marked.owner = graph.owner
  direct : marked.direct = graph.direct
  nodes : List.Forall₂ (fun before after =>
    after.key = before.key ∧ after.children = before.children ∧
      ∃ shared, after.artifact = { before.artifact with shared } ∧
        (shared = true ↔ before.artifact.shared = true ∨ graph.Shares libraries before))
    graph.nodes.entries marked.nodes.entries

theorem eq_of_entries (owner : marked.owner = graph.owner) (direct : marked.direct = graph.direct)
    (entries : marked.nodes.entries = graph.nodes.entries) : marked = graph := by
  obtain ⟨_, _, _, _⟩ := marked
  obtain ⟨_, _, _, _⟩ := graph
  cases owner
  cases direct
  cases entries
  rfl

def mark (references : List Coordinate) (node : Node) : Node :=
  if references.any node.answers then node.setShared true else node

section Mark

variable {references : List Coordinate}

theorem mark_key : (mark references node).key = node.key := by
  unfold mark
  split <;> rfl

theorem mark_children : (mark references node).children = node.children := by
  unfold mark
  split <;> rfl

theorem mark_artifact :
    (mark references node).artifact =
      { node.artifact with shared := node.artifact.shared || references.any node.answers } := by
  unfold mark
  split
  · next marked =>
      rw [marked, Bool.or_true]
      rfl
  · next unmarked =>
      rw [Bool.eq_false_iff.mpr unmarked, Bool.or_false]

/-- Marking coordinates one after another marks each node that answers one of them. -/
theorem foldl_setShared :
    let marked := references.foldl (fun shared reference => shared.setShared reference true) graph
    marked.owner = graph.owner ∧ marked.direct = graph.direct ∧
      marked.nodes.entries = graph.nodes.entries.map (mark references) := by
  induction references generalizing graph with
  | nil => exact ⟨rfl, rfl, (List.map_id _).symm⟩
  | cons first rest ih =>
      obtain ⟨owner, direct, entries⟩ := @ih (graph.setShared first true)
      refine ⟨owner, direct, entries.trans ?_⟩
      change (graph.nodes.entries.map _).map (mark rest) = _
      rw [List.map_map]
      refine List.map_congr_left fun node _ => ?_
      rw [Function.comp_apply, mark, mark, List.any_cons]
      cases answered : node.answers first with
      | false => simp
      | true =>
          -- a node may answer several coordinates; the second mark changes nothing
          have again : (node.setShared true).setShared true = node.setShared true := rfl
          simp [again]

end Mark

theorem owner_shareAll : (graph.shareAll starts).owner = graph.owner :=
  foldl_setShared.1

theorem direct_shareAll : (graph.shareAll starts).direct = graph.direct :=
  foldl_setShared.2.1

theorem entries_shareAll :
    (graph.shareAll starts).nodes.entries =
      graph.nodes.entries.map (mark (starts.flatMap graph.reachableFrom)) :=
  foldl_setShared.2.2

theorem edges_shareAll : (graph.shareAll starts).nodes.edges = graph.nodes.edges := by
  unfold Nodes.edges
  rw [entries_shareAll]
  exact edgesOf_map (fun _ => mark_key) fun _ => mark_children

theorem find?_shareAll {reference : Coordinate} :
    (graph.shareAll starts).nodes.find? reference =
      (graph.nodes.find? reference).map (mark (starts.flatMap graph.reachableFrom)) := by
  rw [Nodes.find?, entries_shareAll]
  exact nodeFor?_map fun _ => mark_key

theorem Valid.shareAll (valid : graph.Valid) : (graph.shareAll starts).Valid := by
  have contains {reference : Coordinate} :
      (graph.shareAll starts).nodes.contains reference = graph.nodes.contains reference := by
    rw [Bool.eq_iff_iff, Nodes.contains_iff, Nodes.contains_iff, find?_shareAll]
    cases graph.nodes.find? reference <;> simp
  refine ⟨fun target member => ?_, fun node member child edge => ?_⟩
  · rw [direct_shareAll] at member
    exact contains.trans (valid.direct target member)
  · rw [entries_shareAll] at member
    obtain ⟨before, listed, rfl⟩ := List.mem_map.mp member
    rw [mark_children] at edge
    exact contains.trans (valid.children before listed child edge)

/-- A marked graph reaches the nodes that it reached before, marked or not. -/
theorem reached_shareAll {origins : List Coordinate} :
    (graph.shareAll starts).nodes.Reached origins node ↔
      ∃ before, graph.nodes.Reached origins before ∧
        mark (starts.flatMap graph.reachableFrom) before = node := by
  simp only [Nodes.reached_iff, edges_shareAll, find?_shareAll, Option.map_eq_some_iff]
  constructor
  · intro reached
    obtain ⟨reference, led, before, found, same⟩ := reached
    exact ⟨before, ⟨reference, led, found⟩, same⟩
  · intro reached
    obtain ⟨before, ⟨reference, led, found⟩, same⟩ := reached
    exact ⟨reference, led, before, found, same⟩

theorem reaches_shareAll {artifact : Artifact} :
    (graph.shareAll starts).Reaches artifact ↔
      ∃ before, graph.nodes.Reached graph.direct before ∧
        (mark (starts.flatMap graph.reachableFrom) before).artifact = artifact := by
  simp only [Reaches, direct_shareAll, reached_shareAll]
  constructor
  · intro reached
    obtain ⟨_, ⟨before, within, rfl⟩, same⟩ := reached
    exact ⟨before, within, same⟩
  · intro reached
    obtain ⟨before, within, same⟩ := reached
    exact ⟨_, ⟨before, within, rfl⟩, same⟩

/-- The coordinates of a walk are answered by exactly the nodes that it reaches. -/
theorem any_reachableFrom (member : node ∈ graph.nodes.entries) {start : Coordinate} :
    (graph.reachableFrom start).any node.answers = true ↔ graph.nodes.Reached [start] node := by
  rw [reachableFrom, List.any_map, List.any_eq_true]
  constructor
  · intro answered
    obtain ⟨⟨reference, other⟩, visited, same⟩ := answered
    obtain ⟨led, _⟩ := Nodes.of_mem_reachable visited
    exact ⟨reference, led, Nodes.find?_iff_mem.mpr ⟨member, Node.answers_iff.mp same⟩⟩
  · intro reached
    obtain ⟨reference, visited⟩ := Nodes.mem_reachable_of_reached reached
    have found := (Nodes.of_mem_reachable visited).2
    exact ⟨(reference, node), visited, Node.answers_iff.mpr (identity_of_nodeFor? found)⟩

theorem sharedStart_ok {start : Coordinate} :
    graph.sharedStart library = .ok start ↔
      graph.findDirect? library.group library.name = some start := by
  rw [sharedStart]
  cases graph.findDirect? library.group library.name <;> simp

theorem exists_findDirect? :
    (∃ start, graph.findDirect? library.group library.name = some start) ↔
      graph.Declares library := by
  rw [← Option.isSome_iff_exists, findDirect?, List.find?_isSome, Declares]

theorem sharedStart_succeeds :
    (∃ start, graph.sharedStart library = .ok start) ↔ graph.Declares library := by
  simp only [sharedStart_ok, exists_findDirect?]

theorem sharedStart_error {failure : Failure} :
    graph.sharedStart library = .error failure ↔
      ¬graph.Declares library ∧ failure = .missingSharedLibrary library.group library.name := by
  rw [← sharedStart_succeeds]
  simp only [sharedStart_ok]
  rw [sharedStart]
  cases graph.findDirect? library.group library.name <;> simp [eq_comm]

theorem sharedStart_congr (direct : marked.direct = graph.direct) :
    marked.sharedStart = graph.sharedStart := by
  funext library
  rw [sharedStart, findDirect?, direct, ← findDirect?, ← sharedStart]

theorem propagateShared_ok :
    graph.propagateShared libraries = .ok marked ↔
      ∃ starts, graph.sharedStarts libraries = .ok starts ∧ graph.shareAll starts = marked :=
  map_ok

theorem Valid.propagateShared (valid : graph.Valid)
    (propagated : graph.propagateShared libraries = .ok marked) : marked.Valid := by
  obtain ⟨starts, _, rfl⟩ := propagateShared_ok.mp propagated
  exact valid.shareAll

theorem propagateShared_succeeds :
    (∃ marked, graph.propagateShared libraries = .ok marked) ↔
      ∀ library ∈ libraries, graph.Declares library := by
  simp only [propagateShared_ok, ← sharedStart_succeeds, ← mapM_succeeds]
  constructor
  · intro succeeded
    obtain ⟨_, starts, found, _⟩ := succeeded
    exact ⟨starts, found⟩
  · intro succeeded
    obtain ⟨starts, found⟩ := succeeded
    exact ⟨_, starts, found, rfl⟩

theorem propagateShared_error {failure : Failure} :
    graph.propagateShared libraries = .error failure ↔
      ∃ before library after, libraries = before ++ library :: after ∧
        (∀ earlier ∈ before, graph.Declares earlier) ∧ ¬graph.Declares library ∧
          failure = .missingSharedLibrary library.group library.name := by
  rw [propagateShared, map_error, sharedStarts, mapM_error]
  simp only [sharedStart_succeeds, sharedStart_error]

/-- The walks of the declared libraries meet exactly the nodes that these share. -/
theorem any_sharedStarts (found : graph.sharedStarts libraries = .ok starts)
    (member : node ∈ graph.nodes.entries) :
    (starts.flatMap graph.reachableFrom).any node.answers = true ↔
      graph.Shares libraries node := by
  simp only [List.any_flatMap, List.any_eq_true, mem_of_mapM_ok found, Shares, sharedStart_ok,
    ← any_reachableFrom member]
  constructor
  · intro met
    obtain ⟨start, ⟨library, declared, named⟩, met⟩ := met
    exact ⟨library, declared, start, named, met⟩
  · intro met
    obtain ⟨library, declared, start, named, met⟩ := met
    exact ⟨start, ⟨library, declared, named⟩, met⟩

theorem markedFrom (propagated : graph.propagateShared libraries = .ok marked) :
    graph.MarkedFrom libraries marked := by
  obtain ⟨starts, found, rfl⟩ := propagateShared_ok.mp propagated
  refine ⟨owner_shareAll, direct_shareAll, ?_⟩
  rw [entries_shareAll, List.forall₂_map_right_iff, List.forall₂_same]
  intro node member
  refine ⟨mark_key, mark_children, _, mark_artifact, ?_⟩
  rw [Bool.or_eq_true, any_sharedStarts found member]

theorem shares_congr (same : ∀ library, library ∈ others ↔ library ∈ libraries) :
    graph.Shares others node ↔ graph.Shares libraries node := by
  simp only [Shares, same]

/-- Neither the order of declarations matters nor how often one is made. -/
theorem propagateShared_of_same (propagated : graph.propagateShared libraries = .ok marked)
    (same : ∀ library, library ∈ others ↔ library ∈ libraries) :
    graph.propagateShared others = .ok marked := by
  have declared : ∀ library ∈ others, graph.Declares library := by
    intro library member
    exact propagateShared_succeeds.mp ⟨marked, propagated⟩ library ((same library).mp member)
  obtain ⟨other, otherPropagated⟩ := propagateShared_succeeds.mpr declared
  obtain ⟨starts, found, rfl⟩ := propagateShared_ok.mp propagated
  obtain ⟨otherStarts, otherFound, rfl⟩ := propagateShared_ok.mp otherPropagated
  have entries : (graph.shareAll otherStarts).nodes.entries =
      (graph.shareAll starts).nodes.entries := by
    rw [entries_shareAll, entries_shareAll]
    refine List.map_congr_left fun node member => ?_
    have agree : (otherStarts.flatMap graph.reachableFrom).any node.answers =
        (starts.flatMap graph.reachableFrom).any node.answers := by
      rw [Bool.eq_iff_iff, any_sharedStarts otherFound member, any_sharedStarts found member,
        shares_congr same]
    rw [mark, mark, agree]
  rw [otherPropagated]
  exact congrArg Except.ok (eq_of_entries (owner_shareAll.trans owner_shareAll.symm)
    (direct_shareAll.trans direct_shareAll.symm) entries)

/-- A node that is reached over a marked graph was reached before, and is marked. -/
theorem setShared_of_reached {start : Coordinate} (listed : start ∈ starts)
    (reached : (graph.shareAll starts).nodes.Reached [start] node) :
    node.setShared true = node := by
  obtain ⟨old, within, rfl⟩ := reached_shareAll.mp reached
  have member := Nodes.mem_of_reached within
  have met : (starts.flatMap graph.reachableFrom).any old.answers = true := by
    rw [List.any_flatMap, List.any_eq_true]
    exact ⟨start, listed, (any_reachableFrom member).mpr within⟩
  rw [mark, if_pos met]
  rfl

/-- What the libraries lead to is marked already when sharing starts again. -/
theorem propagateShared_twice (propagated : graph.propagateShared libraries = .ok marked) :
    marked.propagateShared libraries = .ok marked := by
  obtain ⟨starts, found, rfl⟩ := propagateShared_ok.mp propagated
  have again : (graph.shareAll starts).sharedStarts libraries = .ok starts := by
    rw [sharedStarts, sharedStart_congr direct_shareAll, ← sharedStarts, found]
  refine propagateShared_ok.mpr ⟨starts, again, ?_⟩
  refine eq_of_entries owner_shareAll direct_shareAll ?_
  have unchanged : ∀ node ∈ (graph.shareAll starts).nodes.entries,
      mark (starts.flatMap (graph.shareAll starts).reachableFrom) node = id node := by
    intro node member
    rw [id, mark]
    split
    · next met =>
        rw [List.any_flatMap, List.any_eq_true] at met
        obtain ⟨start, listed, answered⟩ := met
        exact setShared_of_reached listed ((any_reachableFrom member).mp answered)
    · rfl
  rw [entries_shareAll, List.map_congr_left unchanged, List.map_id]

/-- Sharing fails exactly at the first library that is no direct dependency. Else it marks exactly
what the libraries lead to, changes nothing more, and neither the order of the libraries nor
repeating them or the whole of it makes a difference. -/
theorem propagateShared_specification (graph : Graph) (libraries : List SharedLibrary) :
    (∀ failure, graph.propagateShared libraries = .error failure ↔
      ∃ before library after, libraries = before ++ library :: after ∧
        (∀ earlier ∈ before, graph.Declares earlier) ∧ ¬graph.Declares library ∧
          failure = .missingSharedLibrary library.group library.name) ∧
    ((∃ marked, graph.propagateShared libraries = .ok marked) ↔
      ∀ library ∈ libraries, graph.Declares library) ∧
    ∀ marked, graph.propagateShared libraries = .ok marked →
      graph.MarkedFrom libraries marked ∧
      (∀ others, (∀ library, library ∈ others ↔ library ∈ libraries) →
        graph.propagateShared others = .ok marked) ∧
      marked.propagateShared libraries = .ok marked := by
  refine ⟨fun _ => propagateShared_error, propagateShared_succeeds, fun marked propagated => ?_⟩
  exact ⟨markedFrom propagated, fun _ same => propagateShared_of_same propagated same,
    propagateShared_twice propagated⟩

end Graph

end AppBundle
