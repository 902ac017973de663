import AppBundle.Proofs.Graph.Reachability
import AppBundle.Proofs.Traversal

namespace AppBundle

/-! The breadth-first walk meets exactly the coordinates that edges lead to, takes exactly the nodes
among them, and takes each once, whatever cycles and dangling edges there are.
-/

section Walk

variable {nodes : Nodes} {unvisited : List Node} {queue starts : List Coordinate}
  {reference : Coordinate} {node : Node}

namespace Nodes

theorem contains_iff :
    nodes.contains reference = true ↔ ∃ node, nodes.find? reference = some node := by
  rw [contains, find?, ← Option.isSome_iff_exists, List.any_eq_true, List.find?_isSome]

/-- What a walk meets at one coordinate; a node that was visited before is passed over. -/
def visit? (nodes : Nodes) (unvisited : List Node) (reference : Coordinate) : Option Visit :=
  match nodeFor? unvisited reference with
  | some node => some (.reached reference node)
  | none => if nodes.contains reference then none else some (.unresolved reference)

theorem walkOn_nil : nodes.walkOn unvisited [] = [] := by
  rw [walkOn]

theorem walkOn_cons :
    nodes.walkOn unvisited (reference :: queue) =
      (nodes.visit? unvisited reference).toList ++
        nodes.walkOn (withoutNode reference unvisited) (queue ++ edgesOf unvisited reference) := by
  rw [walkOn]
  split
  · next node found =>
      rw [visit?, edgesOf, nodeFor?, found]
      rfl
  · next absent =>
      rw [visit?, edgesOf_absent absent, withoutNode_of_absent absent, nodeFor?, absent,
        List.append_nil]
      split <;> rfl

/-- Induction over a walk: one coordinate is taken from the queue and its node is visited. -/
theorem walkOn_induction {motive : List Node → List Coordinate → Prop} (nodes : Nodes)
    (nil : ∀ unvisited, motive unvisited [])
    (cons : ∀ unvisited reference queue,
      motive (withoutNode reference unvisited) (queue ++ edgesOf unvisited reference) →
        motive unvisited (reference :: queue))
    (unvisited : List Node) (queue : List Coordinate) : motive unvisited queue := by
  induction unvisited, queue using walkOn.induct nodes with
  | case1 unvisited => exact nil unvisited
  | case2 unvisited reference queue node found ih =>
      refine cons unvisited reference queue ?_
      rwa [edgesOf_found found]
  | case3 unvisited reference queue absent known ih =>
      refine cons unvisited reference queue ?_
      rwa [edgesOf_absent absent, withoutNode_of_absent absent, List.append_nil]
  | case4 unvisited reference queue absent unknown ih =>
      refine cons unvisited reference queue ?_
      rwa [edgesOf_absent absent, withoutNode_of_absent absent, List.append_nil]

theorem visit?_reached {first : Coordinate} :
    nodes.visit? unvisited first = some (.reached reference node) ↔
      reference = first ∧ nodeFor? unvisited first = some node := by
  unfold visit?
  split
  · next next found => simp [found, eq_comm]
  · next absent => split <;> simp [absent]

theorem visit?_unresolved {first : Coordinate} :
    nodes.visit? unvisited first = some (.unresolved reference) ↔
      reference = first ∧ nodeFor? unvisited first = none ∧ nodes.contains first = false := by
  unfold visit?
  split
  · next next found => simp [found]
  · next absent =>
      cases known : nodes.contains first with
      | true => simp
      | false => simp [absent, eq_comm]

theorem mem_walkOn_cons {first : Coordinate} {visit : Visit} :
    visit ∈ nodes.walkOn unvisited (first :: queue) ↔
      nodes.visit? unvisited first = some visit ∨
        visit ∈ nodes.walkOn (withoutNode first unvisited) (queue ++ edgesOf unvisited first) := by
  rw [walkOn_cons, List.mem_append, Option.mem_toList]

theorem reached_of_mem_walkOn (visited : .reached reference node ∈ nodes.walkOn unvisited queue) :
    Leads (edgesOf unvisited) queue reference ∧ nodeFor? unvisited reference = some node := by
  induction unvisited, queue using walkOn_induction nodes with
  | nil unvisited =>
      rw [walkOn_nil] at visited
      contradiction
  | cons unvisited first queue ih =>
      rcases mem_walkOn_cons.mp visited with here | later
      · obtain ⟨rfl, found⟩ := visit?_reached.mp here
        exact ⟨.start (List.mem_cons_self ..), found⟩
      · obtain ⟨led, found⟩ := ih later
        exact ⟨led.of_step, (nodeFor?_of_withoutNode found).1⟩

theorem mem_walkOn_of_reached (nodes : Nodes) (reached : ReachedIn unvisited queue node) :
    ∃ reference, .reached reference node ∈ nodes.walkOn unvisited queue := by
  induction unvisited, queue using walkOn_induction nodes with
  | nil unvisited =>
      obtain ⟨reference, led, _⟩ := reached
      exact absurd led not_leads_nil
  | cons unvisited first queue ih =>
      rcases reached.step with here | later
      · exact ⟨first, mem_walkOn_cons.mpr (.inl (visit?_reached.mpr ⟨rfl, here⟩))⟩
      · obtain ⟨reference, visited⟩ := ih later
        exact ⟨reference, mem_walkOn_cons.mpr (.inr visited)⟩

theorem unresolved_mem_walkOn
    (resolved : ∀ reference node, nodeFor? unvisited reference = some node →
      nodes.contains reference = true) :
    .unresolved reference ∈ nodes.walkOn unvisited queue ↔
      Leads (edgesOf unvisited) queue reference ∧ nodes.contains reference = false := by
  induction unvisited, queue using walkOn_induction nodes with
  | nil unvisited =>
      rw [walkOn_nil]
      exact ⟨fun visited => absurd visited List.not_mem_nil,
        fun unresolved => absurd unresolved.1 not_leads_nil⟩
  | cons unvisited first queue ih =>
      have later := ih fun other node found => resolved other node (nodeFor?_of_withoutNode found).1
      rw [mem_walkOn_cons, visit?_unresolved, later]
      constructor
      · intro unresolved
        rcases unresolved with ⟨rfl, _, unknown⟩ | ⟨led, unknown⟩
        · exact ⟨.start (List.mem_cons_self ..), unknown⟩
        · exact ⟨led.of_step, unknown⟩
      · intro unresolved
        obtain ⟨led, unknown⟩ := unresolved
        rcases led.step with rfl | before
        · refine .inl ⟨rfl, ?_, unknown⟩
          cases found : nodeFor? unvisited reference with
          | none => rfl
          | some node => simp [resolved reference node found] at unknown
        · exact .inr ⟨before, unknown⟩

theorem mem_reachedNodes {visits : List Visit} :
    (reference, node) ∈ visits.filterMap Visit.reachedNode? ↔ .reached reference node ∈ visits := by
  rw [List.mem_filterMap]
  constructor
  · intro taken
    obtain ⟨visit, visited, same⟩ := taken
    cases visit with
    | unresolved _ => contradiction
    | reached _ _ =>
        cases same
        exact visited
  · intro visited
    exact ⟨_, visited, rfl⟩

/-- A node that was visited is not met again. -/
theorem identity_ne_of_later {first : Coordinate} {other : Node}
    (found : nodeFor? unvisited first = some node)
    (later : .reached reference other ∈ nodes.walkOn (withoutNode first unvisited) queue) :
    node.key.identity ≠ other.key.identity := by
  obtain ⟨foundLater, different⟩ := nodeFor?_of_withoutNode (reached_of_mem_walkOn later).2
  rw [identity_of_nodeFor? found, identity_of_nodeFor? foundLater]
  exact different.symm

theorem walkOn_distinct :
    ((nodes.walkOn unvisited queue).filterMap Visit.reachedNode?).Pairwise
      fun left right => left.2.key.identity ≠ right.2.key.identity := by
  induction unvisited, queue using walkOn_induction nodes with
  | nil unvisited => simp [walkOn_nil]
  | cons unvisited first queue ih =>
      rw [walkOn_cons, List.filterMap_append]
      cases visited : nodes.visit? unvisited first with
      | none => exact ih
      | some visit =>
          cases visit with
          | unresolved _ => exact ih
          | reached reference node =>
              have found := (visit?_reached.mp visited).2
              refine List.pairwise_cons.mpr ⟨fun later behind => ?_, ih⟩
              exact identity_ne_of_later found (mem_reachedNodes.mp behind)

def edges (nodes : Nodes) (reference : Coordinate) : List Coordinate :=
  edgesOf nodes.entries reference

theorem edges_congr {other : Coordinate} (same : other.identity = reference.identity) :
    nodes.edges other = nodes.edges reference :=
  edgesOf_congr same

def Reached (nodes : Nodes) (starts : List Coordinate) (node : Node) : Prop :=
  ReachedIn nodes.entries starts node

theorem find?_iff_mem :
    nodes.find? reference = some node ↔
      node ∈ nodes.entries ∧ node.key.identity = reference.identity :=
  find?_key_iff_mem (fun node : Node => node.key.identity) nodes.distinct

theorem reached_iff :
    nodes.Reached starts node ↔
      ∃ reference, Leads nodes.edges starts reference ∧ nodes.find? reference = some node :=
  Iff.rfl

theorem mem_of_reached (reached : nodes.Reached starts node) : node ∈ nodes.entries := by
  obtain ⟨_, _, found⟩ := reached_iff.mp reached
  exact (find?_iff_mem.mp found).1

theorem of_mem_reachable (member : (reference, node) ∈ nodes.reachable starts) :
    Leads nodes.edges starts reference ∧ nodes.find? reference = some node :=
  reached_of_mem_walkOn (mem_reachedNodes.mp member)

theorem mem_reachable_of_reached (reached : nodes.Reached starts node) :
    ∃ reference, (reference, node) ∈ nodes.reachable starts := by
  obtain ⟨reference, visited⟩ := nodes.mem_walkOn_of_reached reached
  exact ⟨reference, mem_reachedNodes.mpr visited⟩

theorem exists_mem_reachable :
    (∃ reference, (reference, node) ∈ nodes.reachable starts) ↔ nodes.Reached starts node :=
  ⟨fun ⟨reference, member⟩ => ⟨reference, of_mem_reachable member⟩, mem_reachable_of_reached⟩

theorem reachable_distinct :
    (nodes.reachable starts).Pairwise fun left right =>
      left.2.key.identity ≠ right.2.key.identity :=
  walkOn_distinct

/-- A walk meets exactly the coordinates on its way that have no node. -/
theorem unresolved_mem_walk :
    .unresolved reference ∈ nodes.walk starts ↔
      Leads nodes.edges starts reference ∧ nodes.contains reference = false :=
  unresolved_mem_walkOn fun _ node found => contains_iff.mpr ⟨node, found⟩

theorem of_firstUnresolved? (found : nodes.firstUnresolved? starts = some reference) :
    Leads nodes.edges starts reference ∧ nodes.contains reference = false := by
  obtain ⟨visit, visited, same⟩ := List.exists_of_findSome?_eq_some found
  cases visit with
  | reached _ _ => contradiction
  | unresolved _ =>
      cases same
      exact unresolved_mem_walk.mp visited

/-- A walk finds no unresolved coordinate exactly when every coordinate on its way has a node. -/
theorem firstUnresolved?_eq_none :
    nodes.firstUnresolved? starts = none ↔
      ∀ reference, Leads nodes.edges starts reference → nodes.contains reference = true := by
  rw [firstUnresolved?, List.findSome?_eq_none_iff]
  constructor
  · intro allResolved reference led
    cases known : nodes.contains reference with
    | true => rfl
    | false => cases allResolved _ (unresolved_mem_walk.mpr ⟨led, known⟩)
  · intro known visit visited
    cases visit with
    | reached _ _ => rfl
    | unresolved reference =>
        obtain ⟨led, unknown⟩ := unresolved_mem_walk.mp visited
        simp [known reference led] at unknown

end Nodes

end Walk

namespace Graph

variable {graph : Graph} {artifact : Artifact} {start : Coordinate} {node : Node}

/-- The artifacts that the direct dependencies lead to. -/
def Reaches (graph : Graph) (artifact : Artifact) : Prop :=
  ∃ node, graph.nodes.Reached graph.direct node ∧ node.artifact = artifact

/-- Every edge leads to a node. -/
structure Valid (graph : Graph) : Prop where
  direct : ∀ target ∈ graph.direct, graph.nodes.contains target = true
  children : ∀ node ∈ graph.nodes.entries, ∀ child ∈ node.children,
    graph.nodes.contains child = true

theorem Valid.contains (valid : graph.Valid) {reference : Coordinate}
    (led : Leads graph.nodes.edges graph.direct reference) :
    graph.nodes.contains reference = true := by
  induction led with
  | start member => exact valid.direct _ member
  | @edge source target _ child _ =>
      cases found : graph.nodes.find? source with
      | none =>
          rw [Nodes.edges, edgesOf_absent found] at child
          contradiction
      | some node =>
          rw [Nodes.edges, edgesOf_found found] at child
          exact valid.children node (Nodes.find?_iff_mem.mp found).1 target child

/-- Where every edge leads to a node, the artifacts are named by the coordinates on the way. -/
theorem Valid.reaches_identity (valid : graph.Valid) {identity : Identity} :
    (∃ artifact, graph.Reaches artifact ∧ artifact.identity = identity) ↔
      ∃ reference, Leads graph.nodes.edges graph.direct reference ∧
        reference.identity = identity := by
  constructor
  · intro reached
    obtain ⟨_, ⟨node, ⟨reference, led, found⟩, rfl⟩, rfl⟩ := reached
    exact ⟨reference, led, (identity_of_nodeFor? found).symm.trans node.keyed⟩
  · intro led
    obtain ⟨reference, led, rfl⟩ := led
    obtain ⟨node, found⟩ := Nodes.contains_iff.mp (valid.contains led)
    exact ⟨node.artifact, ⟨node, ⟨reference, led, found⟩, rfl⟩,
      node.keyed.symm.trans (identity_of_nodeFor? found)⟩

theorem mem_flatten : artifact ∈ graph.flatten ↔ graph.Reaches artifact := by
  simp only [flatten, List.mem_map, Reaches, ← Nodes.exists_mem_reachable]
  constructor
  · intro visited
    obtain ⟨⟨reference, node⟩, member, same⟩ := visited
    exact ⟨node, ⟨reference, member⟩, same⟩
  · intro reached
    obtain ⟨node, ⟨reference, member⟩, same⟩ := reached
    exact ⟨(reference, node), member, same⟩

theorem flatten_distinct : graph.flatten.Pairwise (·.identity ≠ ·.identity) := by
  rw [flatten, List.pairwise_map]
  refine Nodes.reachable_distinct.imp ?_
  intro left right different
  rwa [left.2.keyed, right.2.keyed] at different

theorem danglingEdge?_eq_none :
    graph.danglingEdge? = none ↔
      ∀ node ∈ graph.nodes.entries, ∀ child ∈ node.children,
        graph.nodes.contains child = true := by
  simp [danglingEdge?, List.findSome?_eq_none_iff]

theorem validate_ok : graph.validate = .ok () ↔ graph.Valid := by
  unfold validate
  constructor
  · intro accepted
    split at accepted
    · contradiction
    · next direct =>
        split at accepted
        · contradiction
        · next children =>
            exact ⟨by simpa using List.find?_eq_none.mp direct, danglingEdge?_eq_none.mp children⟩
  · intro valid
    have direct : graph.direct.find? (fun target => !graph.nodes.contains target) = none := by
      rw [List.find?_eq_none]
      intro target member
      simp [valid.direct target member]
    rw [direct, danglingEdge?_eq_none.mpr valid.children]

end Graph

end AppBundle
