import AppBundle.Proofs.Graph.Sharing

namespace AppBundle

/-! A library is declared by group and name alone, so that several direct dependencies may match it,
of different versions and classifiers. Sharing starts from the first of them. The others are shared
only where it leads to them, and then the order of the direct dependencies decides what is marked.
-/

namespace Graph

variable {graph marked result : Graph} {libraries : List SharedLibrary} {library : SharedLibrary}
  {starts others : List Coordinate} {target reference : Coordinate} {node : Node}

/-- A direct dependency that some library names, of whatever version and classifier. -/
structure Matches (graph : Graph) (libraries : List SharedLibrary) (target : Coordinate) : Prop where
  direct : target ∈ graph.direct
  named : ∃ library ∈ libraries, target.isNamed library.group library.name = true

/-- The node of a coordinate is visible to all modules. -/
def IsShared (graph : Graph) (reference : Coordinate) : Prop :=
  ∃ node, graph.nodes.find? reference = some node ∧ node.artifact.shared = true

instance (graph : Graph) (reference : Coordinate) : Decidable (graph.IsShared reference) :=
  decidable_of_iff _ (Option.any_eq_true (·.artifact.shared) (graph.nodes.find? reference))

/-- Every direct dependency that matches is visible to all modules. -/
def Promotes (graph : Graph) (libraries : List SharedLibrary) : Prop :=
  ∀ target, graph.Matches libraries target → graph.IsShared target

/-- So is everything that they lead to. -/
def PromotesAll (graph : Graph) (libraries : List SharedLibrary) : Prop :=
  ∀ target, graph.Matches libraries target →
    ∀ node, graph.nodes.Reached [target] node → node.artifact.shared = true

def withDirect (graph : Graph) (direct : List Coordinate) : Graph :=
  { graph with direct }

/-- The same nodes are marked whatever the order of the direct dependencies. -/
def OrderFree (graph : Graph) (libraries : List SharedLibrary) (marked : Graph) : Prop :=
  ∀ others, others.Perm graph.direct →
    (graph.withDirect others).propagateShared libraries = .ok (marked.withDirect others)

/-- Under every order, everything that matching direct dependencies lead to becomes shared. -/
def AlwaysPromotesAll (graph : Graph) (libraries : List SharedLibrary) : Prop :=
  ∀ others, others.Perm graph.direct → ∃ result,
    (graph.withDirect others).propagateShared libraries = .ok result ∧ result.PromotesAll libraries

/-- The direct dependencies that one library names are one artifact. -/
def Unambiguous (graph : Graph) (libraries : List SharedLibrary) : Prop :=
  ∀ library ∈ libraries, ∀ left ∈ graph.direct, ∀ right ∈ graph.direct,
    left.isNamed library.group library.name = true →
      right.isNamed library.group library.name = true → left.identity = right.identity

theorem shared_mark (found : graph.sharedStarts libraries = .ok starts)
    (member : node ∈ graph.nodes.entries) :
    (mark (starts.flatMap graph.reachableFrom) node).artifact.shared = true ↔
      node.artifact.shared = true ∨ graph.Shares libraries node := by
  rw [mark_artifact, Bool.or_eq_true, any_sharedStarts found member]

theorem isShared_iff (propagated : graph.propagateShared libraries = .ok marked) :
    marked.IsShared reference ↔ graph.IsShared reference ∨
      ∃ node, graph.nodes.find? reference = some node ∧ graph.Shares libraries node := by
  obtain ⟨starts, found, rfl⟩ := propagateShared_ok.mp propagated
  simp only [IsShared, find?_shareAll, Option.map_eq_some_iff, ← exists_or, ← and_or_left]
  constructor
  · intro shared
    obtain ⟨_, ⟨before, known, rfl⟩, shared⟩ := shared
    exact ⟨before, known, (shared_mark found (Nodes.find?_iff_mem.mp known).1).mp shared⟩
  · intro shared
    obtain ⟨before, known, shared⟩ := shared
    exact ⟨_, ⟨before, known, rfl⟩,
      (shared_mark found (Nodes.find?_iff_mem.mp known).1).mpr shared⟩

theorem promotesAll_iff (propagated : graph.propagateShared libraries = .ok marked) :
    marked.PromotesAll libraries ↔ ∀ target, graph.Matches libraries target →
      ∀ node, graph.nodes.Reached [target] node →
        node.artifact.shared = true ∨ graph.Shares libraries node := by
  obtain ⟨starts, found, rfl⟩ := propagateShared_ok.mp propagated
  constructor
  · intro promoted target matched node reached
    have member : target ∈ (graph.shareAll starts).direct := by
      rw [direct_shareAll]
      exact matched.direct
    rw [← shared_mark found (Nodes.mem_of_reached reached)]
    exact promoted target ⟨member, matched.named⟩ _ (reached_shareAll.mpr ⟨node, reached, rfl⟩)
  · intro promoted target matched node reached
    obtain ⟨before, within, rfl⟩ := reached_shareAll.mp reached
    rw [shared_mark found (Nodes.mem_of_reached within)]
    exact promoted target ⟨direct_shareAll ▸ matched.direct, matched.named⟩ before within

theorem Valid.exists_reached (valid : graph.Valid) (member : target ∈ graph.direct) :
    ∃ node, graph.nodes.find? target = some node ∧ graph.nodes.Reached [target] node := by
  obtain ⟨node, known⟩ := Nodes.contains_iff.mp (valid.direct target member)
  exact ⟨node, known, target, .start (List.mem_singleton_self _), known⟩

theorem PromotesAll.promotes (promoted : graph.PromotesAll libraries) (valid : graph.Valid) :
    graph.Promotes libraries := by
  intro target matched
  obtain ⟨node, known, reached⟩ := valid.exists_reached matched.direct
  exact ⟨node, known, promoted target matched node reached⟩

/-- The first match of a library is shared with everything that it leads to. -/
theorem shared_of_first (propagated : graph.propagateShared libraries = .ok marked)
    (declared : library ∈ libraries)
    (first : graph.findDirect? library.group library.name = some target)
    (reached : marked.nodes.Reached [target] node) : node.artifact.shared = true := by
  obtain ⟨starts, found, rfl⟩ := propagateShared_ok.mp propagated
  have listed : target ∈ starts :=
    (mem_of_mapM_ok found).mpr ⟨library, declared, sharedStart_ok.mpr first⟩
  rw [← setShared_of_reached listed reached]
  rfl

theorem of_findDirect? (first : graph.findDirect? library.group library.name = some target) :
    target ∈ graph.direct ∧ target.isNamed library.group library.name = true := by
  have named := List.find?_some first
  exact ⟨List.mem_of_find?_eq_some first, named⟩

theorem withDirect_succeeds (propagated : graph.propagateShared libraries = .ok marked)
    (permuted : others.Perm graph.direct) :
    ∃ result, (graph.withDirect others).propagateShared libraries = .ok result := by
  rw [propagateShared_succeeds]
  intro library declared
  obtain ⟨target, member, named⟩ :=
    propagateShared_succeeds.mp ⟨marked, propagated⟩ library declared
  exact ⟨target, permuted.mem_iff.mpr member, named⟩

/-- What a library's first match leads to under one order is shared under another one, if everything
is that matches. -/
theorem shares_of_promotesAll (propagated : graph.propagateShared libraries = .ok marked)
    (promoted : marked.PromotesAll libraries) (permuted : others.Perm graph.direct)
    (shares : (graph.withDirect others).Shares libraries node) :
    node.artifact.shared = true ∨ graph.Shares libraries node := by
  obtain ⟨library, declared, start, first, reached⟩ := shares
  obtain ⟨member, named⟩ := of_findDirect? first
  exact (promotesAll_iff propagated).mp promoted start
    ⟨permuted.mem_iff.mp member, library, declared, named⟩ node reached

theorem mark_congr {references marks : List Coordinate}
    (same : node.artifact.shared = true ∨ references.any node.answers = true ↔
      node.artifact.shared = true ∨ marks.any node.answers = true) :
    mark references node = mark marks node := by
  cases shared : node.artifact.shared with
  | true =>
      have unchanged : node.setShared true = node := by
        obtain ⟨key, artifact, children, keyed⟩ := node
        obtain ⟨_, _, _, _, _⟩ := artifact
        cases shared
        rfl
      rw [mark, mark, unchanged, ite_self, ite_self]
  | false =>
      simp only [shared, Bool.false_eq_true, false_or] at same
      rw [mark, mark, Bool.eq_iff_iff.mpr same]

/-- Two orders under which everything is shared that matches mark the same nodes. -/
theorem eq_of_promotesAll (propagated : graph.propagateShared libraries = .ok marked)
    (promoted : marked.PromotesAll libraries) (permuted : others.Perm graph.direct)
    (otherPropagated : (graph.withDirect others).propagateShared libraries = .ok result)
    (otherPromoted : result.PromotesAll libraries) : result = marked.withDirect others := by
  obtain ⟨starts, found, rfl⟩ := propagateShared_ok.mp propagated
  obtain ⟨otherStarts, otherFound, rfl⟩ := propagateShared_ok.mp otherPropagated
  have owner : (graph.shareAll starts).owner = graph.owner := owner_shareAll
  refine eq_of_entries (owner_shareAll.trans owner.symm) direct_shareAll ?_
  change _ = (graph.shareAll starts).nodes.entries
  rw [entries_shareAll, entries_shareAll]
  refine List.map_congr_left fun node member => mark_congr ?_
  rw [any_sharedStarts otherFound member, any_sharedStarts found member]
  constructor
  · intro shared
    exact shared.elim .inl (shares_of_promotesAll propagated promoted permuted)
  · intro shared
    exact shared.elim .inl
      (shares_of_promotesAll otherPropagated otherPromoted permuted.symm)

/-- Where the order makes no difference, a matching direct dependency might as well be the first. -/
theorem OrderFree.promotesAll (free : graph.OrderFree libraries marked)
    (permuted : others.Perm graph.direct) : (marked.withDirect others).PromotesAll libraries := by
  intro target matched node reached
  obtain ⟨member, library, declared, named⟩ := matched
  have member : target ∈ graph.direct := permuted.mem_iff.mp member
  have front := free (target :: graph.direct.erase target) (List.perm_cons_erase member).symm
  have first : (graph.withDirect (target :: graph.direct.erase target)).findDirect?
      library.group library.name = some target :=
    List.find?_cons_of_pos named
  exact shared_of_first front declared first reached

theorem AlwaysPromotesAll.promotesAll (always : graph.AlwaysPromotesAll libraries)
    (propagated : graph.propagateShared libraries = .ok marked) : marked.PromotesAll libraries := by
  obtain ⟨own, ownPropagated, promoted⟩ := always graph.direct (.refl _)
  have same : marked = own := Except.ok.inj (propagated.symm.trans ownPropagated)
  rwa [same]

theorem orderFree_iff (propagated : graph.propagateShared libraries = .ok marked) :
    graph.OrderFree libraries marked ↔ graph.AlwaysPromotesAll libraries := by
  constructor
  · intro free others permuted
    exact ⟨marked.withDirect others, free others permuted, free.promotesAll permuted⟩
  · intro always others permuted
    obtain ⟨result, otherPropagated, otherPromoted⟩ := always others permuted
    have promoted := always.promotesAll propagated
    rw [otherPropagated,
      eq_of_promotesAll propagated promoted permuted otherPropagated otherPromoted]

theorem leads_congr_start (same : reference.identity = target.identity) {met : Coordinate}
    (led : Leads graph.nodes.edges [reference] met) :
    ∃ other, Leads graph.nodes.edges [target] other ∧ other.identity = met.identity := by
  induction led with
  | start member =>
      rw [List.mem_singleton] at member
      subst member
      exact ⟨target, .start (List.mem_singleton_self _), same.symm⟩
  | @edge source child _ listed ih =>
      obtain ⟨other, led, equal⟩ := ih
      exact ⟨child, .edge led (Nodes.edges_congr equal ▸ listed), rfl⟩

theorem reached_congr (same : reference.identity = target.identity)
    (reached : graph.nodes.Reached [reference] node) : graph.nodes.Reached [target] node := by
  obtain ⟨met, led, known⟩ := Nodes.reached_iff.mp reached
  obtain ⟨other, led, equal⟩ := leads_congr_start same led
  exact ⟨other, led, (nodeFor?_congr equal).trans known⟩

theorem Unambiguous.alwaysPromotesAll (unambiguous : graph.Unambiguous libraries)
    (propagated : graph.propagateShared libraries = .ok marked) :
    graph.AlwaysPromotesAll libraries := by
  intro others permuted
  obtain ⟨result, otherPropagated⟩ := withDirect_succeeds propagated permuted
  refine ⟨result, otherPropagated, (promotesAll_iff otherPropagated).mpr ?_⟩
  intro target matched node reached
  obtain ⟨member, library, declared, named⟩ := matched
  obtain ⟨first, found⟩ := exists_findDirect?.mpr ⟨target, member, named⟩
  obtain ⟨firstMember, firstNamed⟩ := of_findDirect? found
  have same : target.identity = first.identity :=
    unambiguous library declared target (permuted.mem_iff.mp member) first
      (permuted.mem_iff.mp firstMember) named firstNamed
  exact .inr ⟨library, declared, first, found, reached_congr same reached⟩

/-- The first match of every library is shared, and whatever else is shared was so before or is led to
by some first match. The order of the direct dependencies makes no difference exactly when under
every order everything is shared that matching ones lead to. Then all matching ones are promoted, as
they are where each library matches one artifact. -/
theorem propagateShared_promotion (accepted : graph.validate = .ok ())
    (propagated : graph.propagateShared libraries = .ok marked) :
    (∀ library ∈ libraries, ∃ first,
      graph.findDirect? library.group library.name = some first ∧ marked.IsShared first) ∧
    (∀ target, marked.IsShared target ↔ graph.IsShared target ∨
      ∃ node, graph.nodes.find? target = some node ∧ graph.Shares libraries node) ∧
    (graph.OrderFree libraries marked ↔ graph.AlwaysPromotesAll libraries) ∧
    (graph.AlwaysPromotesAll libraries → marked.Promotes libraries) ∧
    (graph.Unambiguous libraries → graph.AlwaysPromotesAll libraries) := by
  have valid := (validate_ok.mp accepted).propagateShared propagated
  refine ⟨fun library declared => ?_, fun _ => isShared_iff propagated,
    orderFree_iff propagated, fun always => (always.promotesAll propagated).promotes valid,
    fun unambiguous => unambiguous.alwaysPromotesAll propagated⟩
  obtain ⟨first, found⟩ := exists_findDirect?.mpr
    (propagateShared_succeeds.mp ⟨marked, propagated⟩ library declared)
  have member := (of_findDirect? found).1
  rw [← (markedFrom propagated).direct] at member
  obtain ⟨node, known, reached⟩ := valid.exists_reached member
  exact ⟨first, found, node, known, shared_of_first propagated declared found reached⟩

/-- One match, with a dependency of its own, beside a dependency that no library names. -/
theorem propagateShared_promotion_single :
    let coordinate (name : String) : Coordinate := ⟨"g", name, "1.0", "jar", none, none⟩
    let artifact (name : String) : Artifact :=
      ⟨coordinate name, some ("/" ++ name ++ ".jar"), false, .empty, .empty⟩
    let graph : Graph := ⟨coordinate "app", [coordinate "other", coordinate "lib"],
      .ofList [(artifact "lib", [coordinate "base"]), (artifact "base", []), (artifact "other", [])]⟩
    let libraries : List SharedLibrary := [⟨"g", "lib"⟩]
    let marked := graph.shareAll [coordinate "lib"]
    graph.validate = .ok () ∧ graph.propagateShared libraries = .ok marked ∧
      marked.Promotes libraries ∧ graph.OrderFree libraries marked := by
  intro coordinate artifact graph libraries marked
  have accepted : graph.validate = .ok () := by rfl
  have propagated : graph.propagateShared libraries = .ok marked := by rfl
  have unambiguous : graph.Unambiguous libraries := by
    unfold Unambiguous
    decide
  obtain ⟨_, _, free, promotes, always⟩ := propagateShared_promotion accepted propagated
  exact ⟨accepted, propagated, promotes (always unambiguous), free.mpr (always unambiguous)⟩

/-- A library beside its tests, which are found second under one order and first under the other. -/
theorem propagateShared_unpromoted :
    let coordinate (classifier : Option String) : Coordinate :=
      ⟨"g", "lib", "1.0", "jar", classifier, none⟩
    let artifact (classifier : Option String) : Artifact :=
      ⟨coordinate classifier, some "/lib.jar", false, .empty, .empty⟩
    let graph : Graph := ⟨⟨"g", "app", "1.0", "jar", none, none⟩,
      [coordinate none, coordinate (some "tests")],
      .ofList [(artifact none, []), (artifact (some "tests"), [])]⟩
    let libraries : List SharedLibrary := [⟨"g", "lib"⟩]
    let marked := graph.shareAll [coordinate none]
    graph.validate = .ok () ∧ graph.propagateShared libraries = .ok marked ∧
      graph.Matches libraries (coordinate (some "tests")) ∧
        ¬marked.IsShared (coordinate (some "tests")) ∧ ¬marked.Promotes libraries ∧
          ¬graph.OrderFree libraries marked := by
  intro coordinate artifact graph libraries marked
  have matched : graph.Matches libraries (coordinate (some "tests")) :=
    ⟨by decide, ⟨"g", "lib"⟩, by decide, by decide⟩
  have unshared : ¬marked.IsShared (coordinate (some "tests")) := by decide +kernel
  have kept : marked.direct = graph.direct := direct_shareAll
  refine ⟨rfl, rfl, matched, unshared, fun promotes => ?_, fun free => ?_⟩
  · exact unshared (promotes _ ⟨kept ▸ matched.direct, matched.named⟩)
  · have reversed := free graph.direct.reverse (List.reverse_perm _)
    have tests : (graph.withDirect graph.direct.reverse).propagateShared libraries =
        .ok ((graph.withDirect graph.direct.reverse).shareAll [coordinate (some "tests")]) := rfl
    have same := Except.ok.inj (tests.symm.trans reversed)
    revert same
    decide +kernel

end Graph

end AppBundle
