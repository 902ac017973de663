import AppBundle.Graph.Basic

namespace AppBundle

/-! Reachability along edges, over a list of nodes that a walk has still to visit. Taking the first
coordinate of a queue with its node, and queueing its children, keeps what can be reached.
-/

/-- The coordinates that a path of edges leads to from some starts. -/
inductive Leads (edges : Coordinate → List Coordinate) (starts : List Coordinate) :
    Coordinate → Prop where
  | start {target : Coordinate} (member : target ∈ starts) : Leads edges starts target
  | edge {source target : Coordinate} (before : Leads edges starts source)
      (child : target ∈ edges source) : Leads edges starts target

section Paths

variable {edges others : Coordinate → List Coordinate} {starts origins : List Coordinate}
  {source target : Coordinate}

theorem Leads.carry (led : Leads edges starts target)
    (start : ∀ origin ∈ starts, Leads others origins origin)
    (edge : ∀ source, Leads edges starts source → ∀ child ∈ edges source, child ∈ others source) :
    Leads others origins target := by
  induction led with
  | start member => exact start _ member
  | edge before child ih => exact .edge ih (edge _ before _ child)

theorem Leads.mono (led : Leads edges starts target)
    (subset : ∀ source, ∀ child ∈ edges source, child ∈ others source) :
    Leads others starts target :=
  led.carry (fun _ member => .start member) fun source _ child => subset source child

/-- What the children of a reached coordinate lead to is reached. -/
theorem Leads.trans (first : Leads edges starts source)
    (second : Leads edges (edges source) target) : Leads edges starts target :=
  second.carry (fun _ child => .edge first child) fun _ _ _ child => child

theorem not_leads_nil : ¬Leads edges [] target := by
  intro led
  induction led with
  | start member => contradiction
  | edge _ _ ih => exact ih

theorem leads_congr (same : ∀ source, Leads edges starts source → others source = edges source) :
    Leads others starts target ↔ Leads edges starts target := by
  constructor
  · intro led
    induction led with
    | start member => exact .start member
    | edge _ child ih => exact .edge ih (same _ ih ▸ child)
  · intro led
    exact led.carry (fun _ member => .start member) fun source before child => by
      rw [same source before]
      exact id

end Paths

/-- The node that answers a coordinate, among some nodes. -/
abbrev nodeFor? (nodes : List Node) (reference : Coordinate) : Option Node :=
  nodes.find? (·.answers reference)

def edgesOf (nodes : List Node) (reference : Coordinate) : List Coordinate :=
  match nodeFor? nodes reference with
  | some node => node.children
  | none => []

/-- The nodes that edges lead to. -/
def ReachedIn (nodes : List Node) (starts : List Coordinate) (node : Node) : Prop :=
  ∃ reference, Leads (edgesOf nodes) starts reference ∧ nodeFor? nodes reference = some node

section Lookup

variable {nodes : List Node} {node : Node} {reference other : Coordinate}

theorem Node.answers_iff :
    node.answers reference = true ↔ node.key.identity = reference.identity := by
  simp [Node.answers]

theorem Node.answers_congr (same : other.identity = reference.identity) :
    node.answers other = node.answers reference := by
  simp [Node.answers, same]

theorem nodeFor?_cons :
    nodeFor? (node :: nodes) reference =
      if node.key.identity = reference.identity then some node else nodeFor? nodes reference := by
  rw [nodeFor?, List.find?_cons]
  cases answered : node.answers reference with
  | true => rw [if_pos (Node.answers_iff.mp answered)]
  | false =>
      have different : ¬node.key.identity = reference.identity := fun same => by
        rw [Node.answers_iff.mpr same] at answered
        contradiction
      rw [if_neg different]

theorem nodeFor?_congr (same : other.identity = reference.identity) :
    nodeFor? nodes other = nodeFor? nodes reference := by
  simp only [nodeFor?, Node.answers_congr same]

theorem edgesOf_congr (same : other.identity = reference.identity) :
    edgesOf nodes other = edgesOf nodes reference := by
  simp only [edgesOf, nodeFor?_congr same]

theorem identity_of_nodeFor? (found : nodeFor? nodes reference = some node) :
    node.key.identity = reference.identity := by
  have answered := List.find?_some found
  exact Node.answers_iff.mp answered

theorem edgesOf_found (found : nodeFor? nodes reference = some node) :
    edgesOf nodes reference = node.children := by
  simp only [edgesOf, found]

theorem edgesOf_absent (absent : nodeFor? nodes reference = none) :
    edgesOf nodes reference = [] := by
  simp only [edgesOf, absent]

/-- Taking a node away leaves the others to be found. -/
theorem nodeFor?_withoutNode (different : other.identity ≠ reference.identity) :
    nodeFor? (withoutNode reference nodes) other = nodeFor? nodes other := by
  rw [nodeFor?, withoutNode, List.find?_filter]
  refine congrArg (nodes.find? ·) (funext fun node => ?_)
  cases answered : node.answers other with
  | false => simp
  | true =>
      have apart : node.answers reference = false := by
        rw [Bool.eq_false_iff]
        intro here
        exact different ((Node.answers_iff.mp answered).symm.trans (Node.answers_iff.mp here))
      simp [apart]

theorem nodeFor?_withoutNode_self (same : other.identity = reference.identity) :
    nodeFor? (withoutNode reference nodes) other = none := by
  rw [nodeFor?_congr same, nodeFor?, List.find?_eq_none]
  intro node member
  simpa [withoutNode] using (List.mem_filter.mp member).2

theorem nodeFor?_of_withoutNode (found : nodeFor? (withoutNode reference nodes) other = some node) :
    nodeFor? nodes other = some node ∧ other.identity ≠ reference.identity := by
  have different : other.identity ≠ reference.identity := by
    intro same
    rw [nodeFor?_withoutNode_self same] at found
    contradiction
  exact ⟨nodeFor?_withoutNode different ▸ found, different⟩

theorem edgesOf_withoutNode {child : Coordinate}
    (member : child ∈ edgesOf (withoutNode reference nodes) other) :
    child ∈ edgesOf nodes other := by
  by_cases same : other.identity = reference.identity
  · rw [edgesOf_absent (nodeFor?_withoutNode_self same)] at member
    contradiction
  · rwa [edgesOf, nodeFor?_withoutNode same] at member

theorem withoutNode_of_absent (absent : nodeFor? nodes reference = none) :
    withoutNode reference nodes = nodes := by
  rw [withoutNode, List.filter_eq_self]
  intro node member
  simpa using List.find?_eq_none.mp absent node member

variable {change : Node → Node}

theorem nodeFor?_map (keeps : ∀ node, (change node).key = node.key) :
    nodeFor? (nodes.map change) reference = (nodeFor? nodes reference).map change := by
  rw [nodeFor?, List.find?_map]
  have unchanged : (fun node => (change node).answers reference) = (·.answers reference) := by
    funext node
    rw [Node.answers, keeps, ← Node.answers]
  exact congrArg (fun test => (nodes.find? test).map change) unchanged

theorem edgesOf_map (keeps : ∀ node, (change node).key = node.key)
    (same : ∀ node, (change node).children = node.children) :
    edgesOf (nodes.map change) = edgesOf nodes := by
  funext reference
  rw [edgesOf, nodeFor?_map keeps, edgesOf]
  cases nodeFor? nodes reference with
  | none => rfl
  | some node => exact same node

end Lookup

section Step

variable {nodes : List Node} {queue : List Coordinate} {reference target : Coordinate} {node : Node}

/-- Replacing the first coordinate by its children, and forgetting its node, reaches nothing new. -/
theorem Leads.of_step
    (led : Leads (edgesOf (withoutNode reference nodes))
      (queue ++ edgesOf nodes reference) target) :
    Leads (edgesOf nodes) (reference :: queue) target := by
  refine led.carry (fun origin member => ?_) fun _ _ _ => edgesOf_withoutNode
  rcases List.mem_append.mp member with queued | child
  · exact .start (List.mem_cons_of_mem _ queued)
  · exact .edge (.start (List.mem_cons_self ..)) child

/-- Everything but the first coordinate itself is still reached without its node. -/
theorem Leads.step (led : Leads (edgesOf nodes) (reference :: queue) target) :
    target = reference ∨
      Leads (edgesOf (withoutNode reference nodes)) (queue ++ edgesOf nodes reference) target := by
  induction led with
  | start member =>
      rcases List.mem_cons.mp member with here | queued
      · exact .inl here
      · exact .inr (.start (List.mem_append_left _ queued))
  | @edge source target _ child ih =>
      by_cases same : source.identity = reference.identity
      -- an edge out of the first coordinate leads to a child, which is queued
      · rw [edgesOf_congr same] at child
        exact .inr (.start (List.mem_append_right _ child))
      · rcases ih with rfl | before
        · exact absurd rfl same
        · refine .inr (.edge before ?_)
          rwa [edgesOf, nodeFor?_withoutNode same]

theorem ReachedIn.step (reached : ReachedIn nodes (reference :: queue) node) :
    nodeFor? nodes reference = some node ∨
      ReachedIn (withoutNode reference nodes) (queue ++ edgesOf nodes reference) node := by
  obtain ⟨target, led, found⟩ := reached
  by_cases same : target.identity = reference.identity
  · exact .inl (nodeFor?_congr same ▸ found)
  · rcases led.step with rfl | before
    · exact absurd rfl same
    · exact .inr ⟨target, before, (nodeFor?_withoutNode same).trans found⟩

end Step

end AppBundle
