import AppBundle.Proofs.Graph.BreadthFirst

namespace AppBundle

/-! The order of a breadth-first walk. A node is taken at the first level that one of its coordinates
belongs to: whatever is queued again later, or has no node, is passed over. The walk therefore lists
what it takes by the distance from the starts.
-/

section Distances

variable {edges : Coordinate → List Coordinate} {starts : List Coordinate}
  {target reference : Coordinate} {depth near far : Nat}

/-- The length of the shortest paths to the coordinates of one identity. -/
structure IsDistance (edges : Coordinate → List Coordinate) (starts : List Coordinate)
    (target : Coordinate) (depth : Nat) : Prop where
  reached : ∃ reference ∈ level edges starts depth, reference.identity = target.identity
  shortest : ∀ shallower < depth, ∀ reference ∈ level edges starts shallower,
    reference.identity ≠ target.identity

/-- One coordinate is at most as far from the starts as another. -/
def NoFarther (edges : Coordinate → List Coordinate) (starts : List Coordinate)
    (left right : Coordinate) : Prop :=
  ∀ near far, IsDistance edges starts left near → IsDistance edges starts right far → near ≤ far

theorem IsDistance.le (distance : IsDistance edges starts target near)
    (member : reference ∈ level edges starts far)
    (same : reference.identity = target.identity) : near ≤ far := by
  rw [← Nat.not_lt]
  intro shallower
  exact distance.shortest far shallower reference member same

theorem IsDistance.unique (first : IsDistance edges starts target near)
    (second : IsDistance edges starts target far) : near = far := by
  obtain ⟨_, nearMember, nearSame⟩ := first.reached
  obtain ⟨_, farMember, farSame⟩ := second.reached
  exact Nat.le_antisymm (first.le farMember farSame) (second.le nearMember nearSame)

theorem IsDistance.noFarther (first : IsDistance edges starts target near)
    (second : IsDistance edges starts reference far) (within : near ≤ far) :
    NoFarther edges starts target reference := by
  intro otherNear otherFar other otherSecond
  rwa [other.unique first, otherSecond.unique second]

end Distances

section Level

variable {unvisited : List Node} {current : List Coordinate} {reference other : Coordinate}
  {node : Node}

/-- The node that a coordinate leads to, unless it was visited before or there is none. -/
def taken (unvisited : List Node) (reference : Coordinate) : List (Coordinate × Node) :=
  (nodeFor? unvisited reference).toList.map (reference, ·)

/-- The nodes that a level takes, each with the coordinate that led to it. -/
def takenAt (unvisited : List Node) : List Coordinate → List (Coordinate × Node)
  | [] => []
  | reference :: rest =>
      taken unvisited reference ++ takenAt (withoutNode reference unvisited) rest

theorem of_mem_takenAt (taken : (reference, node) ∈ takenAt unvisited current) :
    reference ∈ current ∧ nodeFor? unvisited reference = some node := by
  induction current generalizing unvisited with
  | nil => contradiction
  | cons first rest ih =>
      rcases List.mem_append.mp taken with here | later
      · obtain ⟨other, found, same⟩ := List.mem_map.mp here
        cases same
        exact ⟨List.mem_cons_self .., Option.mem_toList.mp found⟩
      · obtain ⟨member, found⟩ := ih later
        exact ⟨List.mem_cons_of_mem _ member, (nodeFor?_of_withoutNode found).1⟩

/-- A level leaves no node behind that one of its coordinates leads to. -/
theorem nodeFor?_sweep_of_mem (member : reference ∈ current)
    (same : other.identity = reference.identity) :
    nodeFor? (sweep unvisited current).1 other = none := by
  cases left : nodeFor? (sweep unvisited current).1 other with
  | none => rfl
  | some node =>
      induction current generalizing unvisited with
      | nil => contradiction
      | cons first rest ih =>
          rcases List.mem_cons.mp member with rfl | later
          · have unseen := (nodeFor?_of_withoutNode (nodeFor?_of_sweep left)).2
            exact absurd same unseen
          · exact ih later left

end Level

namespace Nodes

variable {nodes : Nodes} {starts : List Coordinate} {reference : Coordinate} {node : Node}
  {depth : Nat}

theorem reached_visit? {unvisited : List Node} :
    (nodes.visit? unvisited reference).toList.filterMap Visit.reachedNode? =
      taken unvisited reference := by
  unfold visit? taken
  split
  · next node found => rw [found]; rfl
  · next absent =>
      rw [absent]
      split <;> rfl

/-- A walk takes the nodes of the level at the front of its queue before all others. -/
theorem reached_walkOn (nodes : Nodes) (unvisited : List Node) (current next : List Coordinate) :
    (nodes.walkOn unvisited (current ++ next)).filterMap Visit.reachedNode? =
      takenAt unvisited current ++
        (nodes.walkOn (sweep unvisited current).1
          (next ++ (sweep unvisited current).2)).filterMap Visit.reachedNode? := by
  induction current generalizing unvisited next with
  | nil => simp [takenAt, sweep]
  | cons first rest ih =>
      rw [List.cons_append, walkOn_cons, List.append_assoc, List.filterMap_append, reached_visit?,
        ih, takenAt, sweep_cons.1, sweep_cons.2, List.append_assoc, List.append_assoc]

/-- One turn of a walk: the first coordinate leaves the queue, and its node is traded for its edges. -/
def turn (state : List Node × List Coordinate) : List Node × List Coordinate :=
  match state.2 with
  | [] => state
  | reference :: queue =>
      (withoutNode reference state.1, queue ++ edgesOf state.1 reference)

/-- The node that a turn takes, if there is one. -/
def takenIn (state : List Node × List Coordinate) : List (Coordinate × Node) :=
  match state.2 with
  | [] => []
  | reference :: _ => taken state.1 reference

theorem reached_turn (nodes : Nodes) (state : List Node × List Coordinate) :
    (nodes.walkOn state.1 state.2).filterMap Visit.reachedNode? =
      takenIn state ++
        (nodes.walkOn (turn state).1 (turn state).2).filterMap Visit.reachedNode? := by
  obtain ⟨unvisited, queue⟩ := state
  cases queue with
  | nil => rfl
  | cons reference rest =>
      rw [walkOn_cons, List.filterMap_append, reached_visit?]
      rfl

theorem reached_turns (nodes : Nodes) (state : List Node × List Coordinate) (turns : Nat) :
    (nodes.walkOn state.1 state.2).filterMap Visit.reachedNode? =
      ((List.range turns).flatMap fun count => takenIn (turn^[count] state)) ++
        (nodes.walkOn (turn^[turns] state).1 (turn^[turns] state).2).filterMap
          Visit.reachedNode? := by
  induction turns with
  | zero => rfl
  | succ turns ih =>
      rw [ih, reached_turn nodes (turn^[turns] state), List.range_succ, List.flatMap_append,
        Function.iterate_succ_apply', List.flatMap_singleton, List.append_assoc]

/-- The turns come to an end: the edges of nodes not visited yet, with the queue, grow fewer. -/
theorem queue_turns (state : List Node × List Coordinate) {turns : Nat}
    (enough : edgeCount state.1 + state.2.length ≤ turns) : (turn^[turns] state).2 = [] := by
  induction turns generalizing state with
  | zero =>
      change state.2 = []
      exact List.eq_nil_of_length_eq_zero (by omega)
  | succ turns ih =>
      obtain ⟨unvisited, queue⟩ := state
      cases queue with
      | nil =>
          have idle : turn (unvisited, []) = (unvisited, []) := rfl
          rw [Function.iterate_fixed idle]
      | cons reference rest =>
          rw [Function.iterate_succ_apply]
          have fewer := edgeCount_visit_le unvisited reference
          refine ih _ ?_
          simp only [turn, List.length_append, List.length_cons] at enough ⊢
          omega

/-- A node that a walk has not visited behind some levels has no coordinate among them. -/
theorem identity_ne_of_unvisited
    (unvisited : nodeFor? (nodes.frontier starts depth).1 reference = some node) :
    ∀ above < depth, ∀ other ∈ (nodes.frontier starts above).2,
      other.identity ≠ reference.identity := by
  induction depth with
  | zero => exact fun above before => absurd before (Nat.not_lt_zero _)
  | succ depth ih =>
      intro above before other member same
      rw [frontier_succ] at unvisited
      rcases Nat.lt_succ_iff_lt_or_eq.mp before with earlier | rfl
      · exact ih (nodeFor?_of_sweep unvisited) above earlier other member same
      · rw [nodeFor?_sweep_of_mem member same.symm] at unvisited
        contradiction

/-- What a level takes is as far from the starts as the level is deep. -/
theorem isDistance_of_mem_takenAt
    (taken : (reference, node) ∈
      takenAt (nodes.frontier starts depth).1 (nodes.frontier starts depth).2) :
    IsDistance nodes.edges starts reference depth := by
  obtain ⟨member, unvisited⟩ := of_mem_takenAt taken
  have absent := identity_ne_of_unvisited unvisited
  let answers (other : Coordinate) : Bool := decide (other.identity = reference.identity)
  have nothing : ∀ above < depth, (nodes.frontier starts above).2.find? answers = none := by
    intro above before
    rw [List.find?_eq_none]
    intro other queued
    simpa [answers] using absent above before other queued
  refine ⟨?_, fun shallower before other queued => ?_⟩
  · have found : ((nodes.frontier starts depth).2.find? answers).isSome = true := by
      rw [List.find?_isSome]
      exact ⟨reference, member, by simp [answers]⟩
    rw [← find?_frontier nothing, List.find?_isSome] at found
    simpa [answers] using found
  · have missing : (level nodes.edges starts shallower).find? answers = none := by
      rw [find?_frontier fun above earlier => nothing above (Nat.lt_trans earlier before)]
      exact nothing shallower before
    simpa [answers] using List.find?_eq_none.mp missing other queued

/-- The coordinates that a walk lists behind some levels. -/
def listedBehind (nodes : Nodes) (starts : List Coordinate) (depth : Nat) : List Coordinate :=
  ((nodes.walkOn (nodes.frontier starts depth).1
    (nodes.frontier starts depth).2).filterMap Visit.reachedNode?).map Prod.fst

theorem listedBehind_succ (nodes : Nodes) (starts : List Coordinate) (depth : Nat) :
    nodes.listedBehind starts depth =
      (takenAt (nodes.frontier starts depth).1 (nodes.frontier starts depth).2).map Prod.fst ++
        nodes.listedBehind starts (depth + 1) := by
  have parted := nodes.reached_walkOn (nodes.frontier starts depth).1
    (nodes.frontier starts depth).2 []
  rw [List.append_nil, List.nil_append, ← frontier_succ] at parted
  rw [listedBehind, parted, List.map_append, listedBehind]

/-- Coordinates at some depth and below it, in the order of their distance. -/
structure ByDistance (nodes : Nodes) (starts : List Coordinate) (depth : Nat)
    (listed : List Coordinate) : Prop where
  below : ∀ reference ∈ listed, ∃ far, depth ≤ far ∧ IsDistance nodes.edges starts reference far
  ordered : listed.Pairwise (NoFarther nodes.edges starts)

/-- What a level takes may be listed before what lies deeper. -/
theorem ByDistance.level
    (deeper : nodes.ByDistance starts (depth + 1) (nodes.listedBehind starts (depth + 1))) :
    nodes.ByDistance starts depth (nodes.listedBehind starts depth) := by
  have here : ∀ reference ∈ (takenAt (nodes.frontier starts depth).1
      (nodes.frontier starts depth).2).map Prod.fst,
      IsDistance nodes.edges starts reference depth := by
    intro reference listed
    obtain ⟨⟨_, node⟩, taken, rfl⟩ := List.mem_map.mp listed
    exact isDistance_of_mem_takenAt taken
  rw [listedBehind_succ]
  refine ⟨fun reference listed => ?_, List.pairwise_append.mpr ⟨?_, deeper.ordered, ?_⟩⟩
  · rcases List.mem_append.mp listed with near | later
    · exact ⟨depth, Nat.le_refl _, here reference near⟩
    · obtain ⟨far, below, distance⟩ := deeper.below reference later
      exact ⟨far, Nat.le_of_succ_le below, distance⟩
  · refine List.pairwise_of_forall_mem_list fun left leftListed right rightListed => ?_
    exact (here left leftListed).noFarther (here right rightListed) (Nat.le_refl _)
  · intro left leftListed right rightListed
    obtain ⟨far, below, distance⟩ := deeper.below right rightListed
    exact (here left leftListed).noFarther distance (Nat.le_of_succ_le below)

theorem byDistance_listedBehind (nodes : Nodes) (starts : List Coordinate) (depth : Nat) :
    nodes.ByDistance starts depth (nodes.listedBehind starts depth) := by
  induction left : edgeCount (nodes.frontier starts depth).1 +
    (nodes.frontier starts depth).2.length using Nat.strongRecOn generalizing depth with
  | ind measure ih =>
      cases queue : (nodes.frontier starts depth).2 with
      | nil =>
          rw [listedBehind, queue, walkOn_nil]
          exact ⟨fun reference listed => absurd listed List.not_mem_nil, .nil⟩
      | cons first rest =>
          have smaller := edgeCount_sweep_le (nodes.frontier starts depth).1
            (nodes.frontier starts depth).2
          rw [← frontier_succ] at smaller
          rw [queue, List.length_cons] at left
          exact (ih _ (by omega) (depth + 1) rfl).level

/-- The coordinates that a search from some starts lists: each node within reach once, by distance. -/
structure Searches (nodes : Nodes) (starts visited : List Coordinate) : Prop where
  distinct : visited.Pairwise (·.identity ≠ ·.identity)
  within : ∀ reference, (∃ met ∈ visited, met.identity = reference.identity) ↔
    nodes.contains reference = true ∧
      ∃ met, Leads nodes.edges starts met ∧ met.identity = reference.identity
  distances : ∀ met ∈ visited, ∃ depth, IsDistance nodes.edges starts met depth
  ordered : visited.Pairwise (NoFarther nodes.edges starts)

theorem identity_of_mem_reachable (taken : (reference, node) ∈ nodes.reachable starts) :
    node.key.identity = reference.identity :=
  identity_of_nodeFor? (of_mem_reachable taken).2

theorem searches_reachable (nodes : Nodes) (starts : List Coordinate) :
    nodes.Searches starts ((nodes.reachable starts).map Prod.fst) := by
  have listing := nodes.byDistance_listedBehind starts 0
  refine ⟨?_, fun reference => ?_, fun met listed => ?_, listing.ordered⟩
  · rw [List.pairwise_map]
    refine reachable_distinct.imp_of_mem ?_
    intro left right leftTaken rightTaken different same
    rw [identity_of_mem_reachable leftTaken, identity_of_mem_reachable rightTaken] at different
    exact different same
  · rw [contains_iff]
    constructor
    · intro listed
      obtain ⟨_, member, same⟩ := listed
      obtain ⟨⟨met, node⟩, taken, rfl⟩ := List.mem_map.mp member
      obtain ⟨led, found⟩ := of_mem_reachable taken
      exact ⟨⟨node, (nodeFor?_congr same).symm.trans found⟩, met, led, same⟩
    · intro reached
      obtain ⟨⟨node, found⟩, met, led, same⟩ := reached
      obtain ⟨listed, taken⟩ :=
        mem_reachable_of_reached ⟨met, led, (nodeFor?_congr same).trans found⟩
      refine ⟨listed, List.mem_map_of_mem taken, ?_⟩
      rw [← identity_of_mem_reachable taken, identity_of_nodeFor? found]
  · obtain ⟨far, _, distance⟩ := listing.below met listed
    exact ⟨far, distance⟩

end Nodes

/-- A walk ends after at most as many turns as there are starts, nodes and edges. It lists each node
that the starts lead to once, the nearest first, and flattening lists their artifacts in this order. -/
theorem Graph.walk_breadthFirst (graph : Graph) (starts : List Coordinate) :
    let turns := edgeCount graph.nodes.entries + starts.length
    let states := fun count => Nodes.turn^[count] (graph.nodes.entries, starts)
    (states turns).2 = [] ∧
      graph.nodes.reachable starts =
        (List.range turns).flatMap (fun count => Nodes.takenIn (states count)) ∧
      graph.nodes.Searches starts ((graph.nodes.reachable starts).map Prod.fst) ∧
      List.Forall₂ (fun reference artifact =>
          ∃ node, graph.nodes.find? reference = some node ∧ node.artifact = artifact)
        ((graph.nodes.reachable graph.direct).map Prod.fst) graph.flatten := by
  intro turns states
  have ended : (states turns).2 = [] := Nodes.queue_turns _ (Nat.le_refl _)
  refine ⟨ended, ?_, graph.nodes.searches_reachable starts, ?_⟩
  · have parted := graph.nodes.reached_turns (graph.nodes.entries, starts) turns
    rwa [ended, Nodes.walkOn_nil, List.filterMap_nil, List.append_nil] at parted
  · rw [Graph.flatten, List.forall₂_map_left_iff, List.forall₂_map_right_iff, List.forall₂_same]
    intro taken member
    exact ⟨taken.2, (Nodes.of_mem_reachable member).2, rfl⟩

end AppBundle
