import Mathlib.Logic.Function.Iterate
import AppBundle.Proofs.Graph.Walk

namespace AppBundle

/-! What a breadth-first walk comes to first. The levels of a graph are what its paths of each length
lead to, with everything repeated that several paths lead to. The walk passes over what it has met
before, and still comes to the same first coordinate without a node: whatever it passes over has
queued its children earlier.
-/

section Levels

variable {edges : Coordinate → List Coordinate} {starts : List Coordinate}
  {test : Coordinate → Bool} {target other : Coordinate} {depth : Nat}

/-- What the paths of a length lead to, in the order of the paths. -/
def level (edges : Coordinate → List Coordinate) (starts : List Coordinate) :
    Nat → List Coordinate
  | 0 => starts
  | depth + 1 => (level edges starts depth).flatMap edges

/-- The first coordinate in breadth-first order that passes a test. -/
def FirstReached (edges : Coordinate → List Coordinate) (starts : List Coordinate)
    (test : Coordinate → Bool) (target : Coordinate) : Prop :=
  ∃ depth, (level edges starts depth).find? test = some target ∧
    ∀ shallower < depth, (level edges starts shallower).find? test = none

theorem leads_iff_level : Leads edges starts target ↔ ∃ depth, target ∈ level edges starts depth := by
  constructor
  · intro led
    induction led with
    | start member => exact ⟨0, member⟩
    | edge _ child ih =>
        obtain ⟨depth, before⟩ := ih
        exact ⟨depth + 1, List.mem_flatMap.mpr ⟨_, before, child⟩⟩
  · intro member
    obtain ⟨depth, member⟩ := member
    induction depth generalizing target with
    | zero => exact .start member
    | succ depth ih =>
        obtain ⟨source, before, child⟩ := List.mem_flatMap.mp member
        exact .edge (ih before) child

theorem FirstReached.leads (first : FirstReached edges starts test target) :
    Leads edges starts target ∧ test target = true := by
  obtain ⟨depth, found, _⟩ := first
  exact ⟨leads_iff_level.mpr ⟨depth, List.mem_of_find?_eq_some found⟩, List.find?_some found⟩

theorem FirstReached.unique (first : FirstReached edges starts test target)
    (second : FirstReached edges starts test other) : target = other := by
  obtain ⟨depth, here, above⟩ := first
  obtain ⟨depth', there, above'⟩ := second
  rcases Nat.lt_trichotomy depth depth' with shallower | rfl | deeper
  · exact absurd (here.symm.trans (above' depth shallower)) nofun
  · exact Option.some.inj (here.symm.trans there)
  · exact absurd (there.symm.trans (above depth' deeper)) nofun

theorem findSome?_flatMap {α β γ : Type} {items : List α} {expand : α → List β}
    {search : β → Option γ} :
    (items.flatMap expand).findSome? search =
      items.findSome? fun item => (expand item).findSome? search := by
  induction items with
  | nil => rfl
  | cons item rest ih =>
      rw [List.flatMap_cons, List.findSome?_append, List.findSome?_cons, ih]
      cases (expand item).findSome? search <;> rfl

end Levels

section Sweep

variable {unvisited : List Node} {current next : List Coordinate}
  {edges : Coordinate → List Coordinate} {reference child : Coordinate}

/-- Takes a level from the queue: what stays unvisited, and the children of the nodes that were met. -/
def sweep (unvisited : List Node) : List Coordinate → List Node × List Coordinate
  | [] => (unvisited, [])
  | reference :: rest =>
      let (left, children) := sweep (withoutNode reference unvisited) rest
      (left, edgesOf unvisited reference ++ children)

theorem sweep_cons :
    (sweep unvisited (reference :: current)).1 =
        (sweep (withoutNode reference unvisited) current).1 ∧
      (sweep unvisited (reference :: current)).2 =
        edgesOf unvisited reference ++ (sweep (withoutNode reference unvisited) current).2 :=
  ⟨rfl, rfl⟩

theorem edgesOf_withoutNode_of_ne {other : Coordinate} (different : other.identity ≠ reference.identity) :
    edgesOf (withoutNode reference unvisited) other = edgesOf unvisited other := by
  rw [edgesOf, nodeFor?_withoutNode different, edgesOf]

/-- A coordinate of the level queues its children. -/
theorem mem_sweep (member : reference ∈ current) (edge : child ∈ edgesOf unvisited reference) :
    child ∈ (sweep unvisited current).2 := by
  induction current generalizing unvisited with
  | nil => contradiction
  | cons first rest ih =>
      rw [sweep_cons.2, List.mem_append]
      by_cases same : reference.identity = first.identity
      · rw [edgesOf_congr same] at edge
        exact .inl edge
      · rcases List.mem_cons.mp member with rfl | later
        · exact absurd rfl same
        · rw [← edgesOf_withoutNode_of_ne same] at edge
          exact .inr (ih later edge)

/-- A node that is taken away has queued its children. -/
theorem edgesOf_sweep (unvisited : List Node) (current : List Coordinate) (reference : Coordinate) :
    edgesOf (sweep unvisited current).1 reference = edgesOf unvisited reference ∨
      edgesOf unvisited reference ⊆ (sweep unvisited current).2 := by
  induction current generalizing unvisited with
  | nil => exact .inl rfl
  | cons first rest ih =>
      rw [sweep_cons.1, sweep_cons.2]
      by_cases same : reference.identity = first.identity
      · have here : edgesOf unvisited reference = edgesOf unvisited first := edgesOf_congr same
        rw [here]
        exact .inr (List.subset_append_left ..)
      · have kept : edgesOf (withoutNode first unvisited) reference = edgesOf unvisited reference :=
          edgesOf_withoutNode_of_ne same
        rw [← kept]
        exact (ih _).imp_right fun queued => List.subset_append_of_subset_right _ queued

theorem nodeFor?_of_sweep {node : Node}
    (found : nodeFor? (sweep unvisited current).1 reference = some node) :
    nodeFor? unvisited reference = some node := by
  induction current generalizing unvisited with
  | nil => exact found
  | cons first rest ih => exact (nodeFor?_of_withoutNode (ih found)).1

theorem edgesOf_sweep_subset :
    edgesOf (sweep unvisited current).1 reference ⊆ edgesOf unvisited reference := by
  intro child edge
  cases found : nodeFor? (sweep unvisited current).1 reference with
  | none =>
      rw [edgesOf_absent found] at edge
      contradiction
  | some node =>
      rw [edgesOf_found found] at edge
      rwa [edgesOf_found (nodeFor?_of_sweep found)]

/-- Visiting a node leaves less to walk, its edges counted in. -/
theorem edgeCount_visit_le (unvisited : List Node) (reference : Coordinate) :
    edgeCount (withoutNode reference unvisited) + (edgesOf unvisited reference).length ≤
      edgeCount unvisited := by
  cases found : nodeFor? unvisited reference with
  | none =>
      rw [edgesOf_absent found]
      exact edgeCount_withoutNode_le reference unvisited
  | some node =>
      rw [edgesOf_found found]
      exact Nat.le_of_lt (edgeCount_withoutNode_lt found)

/-- Taking a level leaves less to walk. -/
theorem edgeCount_sweep_le (unvisited : List Node) (current : List Coordinate) :
    edgeCount (sweep unvisited current).1 + (sweep unvisited current).2.length ≤
      edgeCount unvisited := by
  induction current generalizing unvisited with
  | nil => exact Nat.le_refl _
  | cons first rest ih =>
      have later := ih (withoutNode first unvisited)
      have here := edgeCount_visit_le unvisited first
      rw [sweep_cons.1, sweep_cons.2, List.length_append]
      omega

/-- A search among the children that a level queues is a search among all children of the level, where
it would find nothing among those of nodes that were met before. -/
theorem findSome?_sweep {β : Type} {search : Coordinate → Option β}
    (alike : ∀ left right : Coordinate, left.identity = right.identity → edges left = edges right)
    (within : ∀ reference, edgesOf unvisited reference ⊆ edges reference)
    (stale : ∀ reference ∈ current, edges reference = edgesOf unvisited reference ∨
      ∀ child ∈ edges reference, search child = none) :
    (sweep unvisited current).2.findSome? search = (current.flatMap edges).findSome? search := by
  induction current generalizing unvisited with
  | nil => rfl
  | cons first rest ih =>
      rw [sweep_cons.2, List.flatMap_cons, List.findSome?_append, List.findSome?_append]
      obtain ⟨here, later⟩ := List.forall_mem_cons.mp stale
      have same : (edgesOf unvisited first).findSome? search = (edges first).findSome? search := by
        rcases here with whole | nothing
        · rw [whole]
        · rw [List.findSome?_eq_none_iff.mpr nothing, List.findSome?_eq_none_iff]
          exact fun child edge => nothing child (within first edge)
      rw [same]
      cases found : (edges first).findSome? search with
      | some value => rfl
      | none =>
          -- from here on the first coordinate counts as met before
          refine ih (fun reference => ?_) fun reference member => ?_
          · exact List.Subset.trans (fun child => edgesOf_withoutNode) (within reference)
          · by_cases repeated : reference.identity = first.identity
            · rw [alike reference first repeated]
              exact .inr (List.findSome?_eq_none_iff.mp found)
            · rw [edgesOf_withoutNode_of_ne repeated]
              exact later reference member

end Sweep

namespace Nodes

variable {nodes : Nodes} {starts : List Coordinate} {reference child target : Coordinate}
  {depth : Nat} {state : List Node × List Coordinate}

/-- What a walk still has to visit, and its queue, after some levels. -/
def frontier (nodes : Nodes) (starts : List Coordinate) (depth : Nat) :
    List Node × List Coordinate :=
  (fun state => sweep state.1 state.2)^[depth] (nodes.entries, starts)

def isUnresolved (nodes : Nodes) (reference : Coordinate) : Bool :=
  !nodes.contains reference

theorem frontier_succ :
    nodes.frontier starts (depth + 1) =
      sweep (nodes.frontier starts depth).1 (nodes.frontier starts depth).2 :=
  Function.iterate_succ_apply' ..

theorem frontier_subset : edgesOf (nodes.frontier starts depth).1 reference ⊆ nodes.edges reference := by
  induction depth with
  | zero => exact List.Subset.refl _
  | succ depth ih =>
      rw [frontier_succ]
      exact List.Subset.trans edgesOf_sweep_subset ih

/-- Behind a level, a node is unvisited or has queued its children at a level before. -/
theorem visited_queued (nodes : Nodes) (starts : List Coordinate) (depth : Nat)
    (reference : Coordinate) :
    nodes.edges reference = edgesOf (nodes.frontier starts depth).1 reference ∨
      ∃ earlier < depth, nodes.edges reference ⊆ (nodes.frontier starts (earlier + 1)).2 := by
  induction depth with
  | zero => exact .inl rfl
  | succ depth ih =>
      rcases ih with whole | ⟨earlier, before, queued⟩
      · rw [whole]
        rcases edgesOf_sweep (nodes.frontier starts depth).1 (nodes.frontier starts depth).2
          reference with kept | queued
        · rw [← frontier_succ] at kept
          exact .inl kept.symm
        · rw [← frontier_succ] at queued
          exact .inr ⟨depth, Nat.lt_succ_self _, queued⟩
      · exact .inr ⟨earlier, by omega, queued⟩

theorem children_queued (member : reference ∈ (nodes.frontier starts depth).2)
    (edge : child ∈ nodes.edges reference) :
    ∃ earlier ≤ depth, child ∈ (nodes.frontier starts (earlier + 1)).2 := by
  rcases visited_queued nodes starts depth reference with whole | ⟨earlier, before, queued⟩
  · rw [whole] at edge
    refine ⟨depth, Nat.le_refl _, ?_⟩
    rw [frontier_succ]
    exact mem_sweep member edge
  · exact ⟨earlier, Nat.le_of_lt before, queued edge⟩

/-- A search that finds nothing at the levels above finds the same in the queue of a walk as among
everything that the paths of that length lead to. -/
theorem findSome?_frontier {β : Type} {search : Coordinate → Option β}
    (nothing : ∀ above < depth, ∀ reference ∈ (nodes.frontier starts above).2,
      search reference = none) :
    (level nodes.edges starts depth).findSome? search =
      (nodes.frontier starts depth).2.findSome? search := by
  induction depth generalizing search with
  | zero => rfl
  | succ depth ih =>
      have passed : ∀ above < depth, ∀ reference ∈ (nodes.frontier starts above).2,
          (nodes.edges reference).findSome? search = none := by
        intro above before reference member
        rw [List.findSome?_eq_none_iff]
        intro child edge
        obtain ⟨earlier, shallow, queued⟩ := children_queued member edge
        exact nothing (earlier + 1) (by omega) child queued
      calc (level nodes.edges starts (depth + 1)).findSome? search
          = (level nodes.edges starts depth).findSome? fun reference =>
              (nodes.edges reference).findSome? search := findSome?_flatMap
        _ = (nodes.frontier starts depth).2.findSome? fun reference =>
              (nodes.edges reference).findSome? search := ih passed
        _ = ((nodes.frontier starts depth).2.flatMap nodes.edges).findSome? search :=
              findSome?_flatMap.symm
        _ = (nodes.frontier starts (depth + 1)).2.findSome? search := ?_
      rw [frontier_succ]
      refine (findSome?_sweep (fun _ _ => edges_congr) (fun _ => frontier_subset) ?_).symm
      intro reference _
      refine (visited_queued nodes starts depth reference).imp_right fun queued child edge => ?_
      obtain ⟨earlier, before, queued⟩ := queued
      exact nothing (earlier + 1) (by omega) child (queued edge)

/-- The first of a level to pass a test, where none above does, is the first of the queue to do so. -/
theorem find?_frontier {test : Coordinate → Bool}
    (nothing : ∀ above < depth, (nodes.frontier starts above).2.find? test = none) :
    (level nodes.edges starts depth).find? test = (nodes.frontier starts depth).2.find? test := by
  rw [List.find?_eq_findSome?_guard, List.find?_eq_findSome?_guard]
  refine findSome?_frontier fun above before reference member => ?_
  have passed := List.find?_eq_none.mp (nothing above before) reference member
  simpa [Option.guard] using passed

/-- Within a level a walk meets the coordinates without a node in their order. -/
theorem findSome?_walkOn {unvisited : List Node} (current next : List Coordinate)
    (known : ∀ reference node, nodeFor? unvisited reference = some node →
      nodes.contains reference = true) :
    (nodes.walkOn unvisited (current ++ next)).findSome? Visit.unresolved? =
      (current.find? nodes.isUnresolved).or
        ((nodes.walkOn (sweep unvisited current).1
          (next ++ (sweep unvisited current).2)).findSome? Visit.unresolved?) := by
  induction current generalizing unvisited next with
  | nil => simp [sweep]
  | cons first rest ih =>
      have later := @ih (withoutNode first unvisited) (next ++ edgesOf unvisited first) fun reference node found =>
          known reference node (nodeFor?_of_withoutNode found).1
      rw [List.cons_append, walkOn_cons, List.append_assoc, List.findSome?_append, later,
        sweep_cons.1, sweep_cons.2, List.append_assoc, List.find?_cons]
      cases resolved : nodes.contains first with
      | true =>
          have passed : (nodes.visit? unvisited first).toList.findSome? Visit.unresolved? = none := by
            unfold visit?
            split
            · rfl
            · simp [resolved]
          simp [passed, isUnresolved, resolved]
      | false =>
          have absent : nodeFor? unvisited first = none := by
            cases found : nodeFor? unvisited first with
            | none => rfl
            | some node => simp [known first node found] at resolved
          simp [visit?, absent, isUnresolved, resolved, Visit.unresolved?]

/-- A walk that meets a coordinate without a node meets the first one of some level first. -/
theorem level_of_findSome? (state : List Node × List Coordinate)
    (known : ∀ reference node, nodeFor? state.1 reference = some node →
      nodes.contains reference = true)
    (found : (nodes.walkOn state.1 state.2).findSome? Visit.unresolved? = some target) :
    ∃ depth, ((fun state => sweep state.1 state.2)^[depth] state).2.find? nodes.isUnresolved =
        some target ∧
      ∀ above < depth,
        ((fun state => sweep state.1 state.2)^[above] state).2.find? nodes.isUnresolved = none := by
  induction left : edgeCount state.1 + state.2.length using Nat.strongRecOn
    generalizing state with
  | ind measure ih =>
      have parted := findSome?_walkOn state.2 [] known
      rw [List.append_nil, List.nil_append, found] at parted
      cases here : state.2.find? nodes.isUnresolved with
      | some first =>
          rw [here] at parted
          exact ⟨0, here.trans parted.symm, fun _ above => absurd above (Nat.not_lt_zero _)⟩
      | none =>
          have occupied : 0 < state.2.length := by
            rw [List.length_pos_iff]
            intro none
            rw [none, walkOn_nil] at found
            contradiction
          have smaller := edgeCount_sweep_le state.1 state.2
          rw [here, Option.none_or] at parted
          obtain ⟨depth, there, above⟩ := ih _ (by omega) _
            (fun reference node within => known reference node (nodeFor?_of_sweep within))
            parted.symm rfl
          refine ⟨depth + 1, there, fun shallower before => ?_⟩
          cases shallower with
          | zero => exact here
          | succ shallower => exact above shallower (by omega)

/-- The coordinate that a walk reports comes first in breadth-first order. -/
theorem firstReached_of_firstUnresolved? (found : nodes.firstUnresolved? starts = some target) :
    FirstReached nodes.edges starts nodes.isUnresolved target := by
  obtain ⟨depth, here, above⟩ := level_of_findSome? (nodes.entries, starts)
    (fun _ node within => contains_iff.mpr ⟨node, within⟩) found
  have same : ∀ shallower ≤ depth,
      (level nodes.edges starts shallower).find? nodes.isUnresolved =
        (nodes.frontier starts shallower).2.find? nodes.isUnresolved :=
    fun shallower within => find?_frontier fun earlier before => above earlier (by omega)
  refine ⟨depth, (same depth (Nat.le_refl _)).trans here, fun shallower before => ?_⟩
  exact (same shallower (Nat.le_of_lt before)).trans (above shallower before)

end Nodes

end AppBundle
