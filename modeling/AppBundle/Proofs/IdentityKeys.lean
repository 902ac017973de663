import AppBundle.Proofs.Application.Nested
import AppBundle.Proofs.CoordinateOrder
import AppBundle.Proofs.Graph.Walk

namespace AppBundle

/-! Maps whose keys are coordinates. Two maps are alike where their entries agree one after the other up
to the types and scopes of coordinates. Asked by coordinates of one identity they give alike answers,
and they stay alike whatever coordinates of one identity are inserted into them.
-/

/-- The same models under keys of the same identities, in the same order. -/
abbrev EntriesAlike (left right : List (Coordinate × Model)) : Prop :=
  List.Forall₂ (fun first second => first.1.Same second.1 ∧ first.2 = second.2) left right

theorem insertEntry_alike {key other : Coordinate} (same : key.Same other) (model : Model)
    {left right : List (Coordinate × Model)} (alike : EntriesAlike left right) :
    EntriesAlike (insertEntry key model left) (insertEntry other model right) := by
  induction alike with
  | nil => exact .cons ⟨same, rfl⟩ .nil
  | @cons first second _ _ here later ih =>
      rw [insertEntry, insertEntry, Coordinate.order_congr same here.1]
      split
      · exact .cons ⟨same, rfl⟩ (.cons here later)
      · exact .cons here ih

namespace Application

variable {application left right : Application} {key other : Coordinate} {model : Model}

/-- Going through the nested models of one application shows what it shows of the other. -/
def NestedAlike (left right : Application) : Prop :=
  EntriesAlike left.nested right.nested

instance : Decidable (left.NestedAlike right) :=
  inferInstanceAs (Decidable (List.Forall₂ _ _ _))

theorem hasNested_eq (application : Application) (key : Coordinate) :
    application.hasNested key = (application.nested? key).isSome := by
  rw [Bool.eq_iff_iff, hasNested_iff, nested?, Option.isSome_map, List.find?_isSome]
  simp

theorem nested?_eq_some :
    application.nested? key = some model ↔
      ∃ entry ∈ application.nested, entry.1.identity = key.identity ∧ entry.2 = model := by
  have distinct : application.nested.Pairwise (·.1.identity ≠ ·.1.identity) := by
    refine application.ascending.imp ?_
    intro left right before same
    rw [Coordinate.order_eq_iff.mpr same] at before
    cases before
  rw [nested?, Option.map_eq_some_iff]
  simp only [find?_key_iff_mem (fun entry : Coordinate × Model => entry.1.identity) distinct, and_assoc]

/-- A search by the order of keys ends where a search for an equal key ends. -/
theorem nested?_eq_ordered (application : Application) (key : Coordinate) :
    application.nested? key =
      (application.nested.find? fun entry => key.order entry.1 = .eq).map (·.2) := by
  have tests : (fun entry : Coordinate × Model => decide (entry.1.identity = key.identity)) =
      fun entry => decide (key.order entry.1 = .eq) := by
    funext entry
    rw [decide_eq_decide, Coordinate.order_eq_iff]
    exact eq_comm
  rw [nested?, tests]

theorem NestedAlike.nested? (alike : left.NestedAlike right) (same : key.Same other) :
    left.nested? key = right.nested? other := by
  have same : key.identity = other.identity := same
  have agree (entry entry' : Coordinate × Model) (here : entry.1.Same entry'.1 ∧ entry.2 = entry'.2) :
      decide (entry.1.identity = key.identity) = decide (entry'.1.identity = other.identity) := by
    have keys : entry.1.identity = entry'.1.identity := here.1
    rw [keys, same]
  rcases find?_forall₂ alike agree with ⟨absent, absent'⟩ | ⟨entry, entry', here, found, found'⟩
  · rw [Application.nested?, Application.nested?, absent, absent']
  · rw [Application.nested?, Application.nested?, found, found']
    exact congrArg some here.2

theorem NestedAlike.hasNested (alike : left.NestedAlike right) (same : key.Same other) :
    left.hasNested key = right.hasNested other := by
  rw [hasNested_eq, hasNested_eq, alike.nested? same]

/-- The first key of a group and a name is at the same place in both. -/
theorem NestedAlike.keyNamed? (alike : left.NestedAlike right) (group name : String) :
    Option.Rel Coordinate.Same (left.keyNamed? group name) (right.keyNamed? group name) := by
  have agree (entry entry' : Coordinate × Model) (here : entry.1.Same entry'.1 ∧ entry.2 = entry'.2) :
      entry.1.isNamed group name = entry'.1.isNamed group name :=
    Coordinate.isNamed_congr here.1 group name
  rcases find?_forall₂ alike agree with ⟨absent, absent'⟩ | ⟨entry, entry', here, found, found'⟩
  · rw [Application.keyNamed?, Application.keyNamed?, absent, absent']
    exact .none
  · rw [Application.keyNamed?, Application.keyNamed?, found, found']
    exact .some here.1

/-- Both refuse a key that is known, each by its own coordinate, and else both take it. -/
theorem NestedAlike.insertNested (alike : left.NestedAlike right) (same : key.Same other)
    (model : Model) :
    (left.insertNested key model = .error (.duplicateDefinition key) ∧
        right.insertNested other model = .error (.duplicateDefinition other)) ∨
      ∃ result result', left.insertNested key model = .ok result ∧
        right.insertNested other model = .ok result' ∧ result.NestedAlike result' := by
  have agree := alike.hasNested same
  cases known : left.hasNested key with
  | true => exact .inl ⟨insertNested_known known, insertNested_known (agree ▸ known)⟩
  | false =>
      obtain ⟨result, inserted, _, nested⟩ := insertNested_absent model known
      obtain ⟨result', inserted', _, nested'⟩ := insertNested_absent model (agree ▸ known)
      refine .inr ⟨result, result', inserted, inserted', ?_⟩
      rw [NestedAlike, nested, nested']
      exact insertEntry_alike same model alike

/-- What is found under each key decides in which order the models come. -/
theorem nestedAlike_iff :
    left.NestedAlike right ↔ ∀ key, left.nested? key = right.nested? key := by
  constructor
  · intro alike key
    exact alike.nested? (show key.identity = key.identity from rfl)
  · intro same
    let shown (entry : Coordinate × Model) : Identity × Model := (entry.1.identity, entry.2)
    have irreflexive (identity : Identity) : ¬identity.order identity = .lt := by
      have equal : identity.order identity = .eq := Std.ReflCmp.compare_self
      rw [equal]
      decide
    have ascending (application : Application) :
        (application.nested.map shown).Pairwise fun first second => first.1.order second.1 = .lt :=
      List.pairwise_map.mpr application.ascending
    have distinct (application : Application) : (application.nested.map shown).Nodup := by
      refine (ascending application).imp ?_
      intro first second before equal
      rw [equal] at before
      exact irreflexive _ before
    have listed (application : Application) (identity : Identity) (model : Model) :
        (identity, model) ∈ application.nested.map shown ↔
          application.nested? ⟨identity.group, identity.name, identity.version, "",
            identity.classifier, none⟩ = some model := by
      rw [nested?_eq_some, List.mem_map]
      simp only [shown, Prod.mk.injEq]
      rfl
    have permuted : (left.nested.map shown).Perm (right.nested.map shown) := by
      refine (List.perm_ext_iff_of_nodup (distinct left) (distinct right)).mpr fun pair => ?_
      rw [listed, listed, same]
    have equal : left.nested.map shown = right.nested.map shown := by
      refine permuted.eq_of_pairwise ?_ (ascending left) (ascending right)
      intro first second _ _ before after
      exact absurd (Std.TransCmp.lt_trans before after) (irreflexive _)
    rw [← List.forall₂_eq_eq_eq, List.forall₂_map_left_iff, List.forall₂_map_right_iff] at equal
    exact equal.imp fun first second pair => Prod.mk.inj pair

end Application

/-- Equal up to the types and scopes of coordinates. -/
structure Node.Same (left right : Node) : Prop where
  key : left.key.Same right.key
  artifact : left.artifact.Same right.artifact
  children : List.Forall₂ Coordinate.Same left.children right.children

namespace Nodes

variable {left right : Nodes} {reference other : Coordinate} {artifact artifact' : Artifact}
  {children children' : List Coordinate}

/-- Going through the nodes of one map shows what it shows of the other. -/
def Alike (left right : Nodes) : Prop :=
  List.Forall₂ Node.Same left.entries right.entries

/-- A search for equal pieces of a hash ends where a search for an equal key ends. -/
theorem find?_eq_hashed (nodes : Nodes) (reference : Coordinate) :
    nodes.find? reference = nodes.entries.find? fun node => node.key.hashed = reference.hashed := by
  have tests : (fun node : Node => node.answers reference) =
      fun node => decide (node.key.hashed = reference.hashed) := by
    funext node
    rw [Node.answers, decide_eq_decide, Coordinate.hashed_eq_iff]
    rfl
  rw [find?, tests]

theorem Alike.find? (alike : left.Alike right) (same : reference.Same other) :
    Option.Rel Node.Same (left.find? reference) (right.find? other) := by
  have same : reference.identity = other.identity := same
  have agree (node node' : Node) (here : node.Same node') :
      node.answers reference = node'.answers other := by
    have keys : node.key.identity = node'.key.identity := here.key
    rw [Node.answers, Node.answers, keys, same]
  rcases find?_forall₂ alike agree with ⟨absent, absent'⟩ | ⟨node, node', here, found, found'⟩
  · rw [Nodes.find?, Nodes.find?, absent, absent']
    exact .none
  · rw [Nodes.find?, Nodes.find?, found, found']
    exact .some here

theorem Alike.contains (alike : left.Alike right) (same : reference.Same other) :
    left.contains reference = right.contains other := by
  have answers := alike.find? same
  rw [Bool.eq_iff_iff, contains_iff, contains_iff]
  generalize left.find? reference = found, right.find? other = found' at answers
  cases answers with
  | none => simp
  | some _ => simp

theorem putNode_alike {nodes others : List Node} (alike : List.Forall₂ Node.Same nodes others)
    (same : artifact.Same artifact') (edges : List.Forall₂ Coordinate.Same children children') :
    List.Forall₂ Node.Same (putNode artifact children nodes) (putNode artifact' children' others) := by
  have keys : artifact.identity = artifact'.identity := same.1
  induction alike with
  | nil => exact .cons ⟨keys, same, edges⟩ .nil
  | @cons node node' _ _ here later ih =>
      have known : node.key.identity = node'.key.identity := here.key
      rw [putNode, putNode]
      by_cases found : node.key.identity = artifact.identity
      · rw [dif_pos found, dif_pos (known.symm.trans (found.trans keys))]
        exact .cons ⟨here.key, same, edges⟩ later
      · rw [dif_neg found, dif_neg fun found' => found (known.trans (found'.trans keys.symm))]
        exact .cons here ih

theorem Alike.insert (alike : left.Alike right) (same : artifact.Same artifact')
    (edges : List.Forall₂ Coordinate.Same children children') :
    (left.insert artifact children).Alike (right.insert artifact' children') :=
  putNode_alike alike same edges

/-- Maps that were filled alike are gone through alike. -/
theorem ofList_alike {entries others : List (Artifact × List Coordinate)}
    (pairs : List.Forall₂ (fun entry other => entry.1.Same other.1 ∧
      List.Forall₂ Coordinate.Same entry.2 other.2) entries others) :
    (ofList entries).Alike (ofList others) := by
  have filled (left right : Nodes) (alike : left.Alike right) :
      (entries.foldl (fun nodes entry => nodes.insert entry.1 entry.2) left).Alike
        (others.foldl (fun nodes entry => nodes.insert entry.1 entry.2) right) := by
    induction pairs generalizing left right with
    | nil => exact alike
    | cons here _ ih => exact ih _ _ (alike.insert here.1 here.2)
  exact filled empty empty .nil

end Nodes

/-- The order of coordinates is total, antisymmetric and transitive, and it calls equal exactly the
coordinates that agree on group, name, version and classifier, as equality and hashing do; types and
scopes change none of the three. So a map finds under all coordinates of one identity the same, takes or
refuses them alike, and shows its entries in an order that no type and no scope has a part in. -/
theorem Coordinate.order_by_identity :
    (∀ first second third : Coordinate,
      first.order second = (second.order first).swap ∧
        ((first.order second).isLE || (second.order first).isLE) = true ∧
        ((first.order second).isLE = true → (second.order third).isLE = true →
          (first.order third).isLE = true) ∧
        (first.order second = .lt → second.order third = .lt → first.order third = .lt)) ∧
    (∀ left right : Coordinate,
      (left.order right = .eq ↔ left.Same right) ∧
        (left.Same right ↔ left.group = right.group ∧ left.name = right.name ∧
          left.version = right.version ∧ left.classifier = right.classifier) ∧
        (left.hashed = right.hashed ↔ left.Same right) ∧
        (left.Same right → left.hashCode = right.hashCode)) ∧
    (∀ (left right : Coordinate) (kind kind' : String) (scope scope' : Option String),
      let left' := { left with kind, scope }
      let right' := { right with kind := kind', scope := scope' }
      left'.order right' = left.order right ∧ (left'.Same right' ↔ left.Same right) ∧
        left'.hashed = left.hashed ∧ left'.hashCode = left.hashCode) ∧
    (∀ left right : Application,
      (∀ key, left.nested? key =
        (left.nested.find? fun entry => key.order entry.1 = .eq).map (·.2)) ∧
        (left.NestedAlike right ↔ ∀ key, left.nested? key = right.nested? key) ∧
        (left.NestedAlike right → ∀ key other : Coordinate, key.Same other →
          left.nested? key = right.nested? other ∧
            left.hasNested key = right.hasNested other ∧
            Option.Rel Coordinate.Same (left.keyNamed? key.group key.name)
              (right.keyNamed? other.group other.name) ∧
            ∀ model,
              (left.insertNested key model = .error (.duplicateDefinition key) ∧
                right.insertNested other model = .error (.duplicateDefinition other)) ∨
              ∃ result result', left.insertNested key model = .ok result ∧
                right.insertNested other model = .ok result' ∧ result.NestedAlike result')) ∧
    (∀ entries others : List (Artifact × List Coordinate),
      List.Forall₂ (fun entry other => entry.1.Same other.1 ∧
        List.Forall₂ Coordinate.Same entry.2 other.2) entries others →
      (Nodes.ofList entries).Alike (Nodes.ofList others)) ∧
    ∀ left right : Nodes,
      (∀ reference, left.find? reference =
        left.entries.find? fun node => node.key.hashed = reference.hashed) ∧
        (left.Alike right →
          (∀ reference other : Coordinate, reference.Same other →
            Option.Rel Node.Same (left.find? reference) (right.find? other) ∧
              left.contains reference = right.contains other) ∧
            ∀ (artifact artifact' : Artifact) (children children' : List Coordinate),
              artifact.Same artifact' → List.Forall₂ Coordinate.Same children children' →
                (left.insert artifact children).Alike (right.insert artifact' children')) := by
  refine ⟨fun first second third => ⟨Std.OrientedCmp.eq_swap, isLE_total first second,
      Std.TransCmp.isLE_trans, Std.TransCmp.lt_trans⟩,
    fun left right => ⟨order_eq_iff, same_iff, hashed_eq_iff, hashCode_congr⟩,
    fun left right kind kind' scope scope' => ⟨rfl, Iff.rfl, rfl, rfl⟩,
    fun left right => ⟨left.nested?_eq_ordered, Application.nestedAlike_iff,
      fun alike key other same => ?_⟩,
    fun entries others => Nodes.ofList_alike,
    fun left right => ⟨left.find?_eq_hashed, fun alike =>
      ⟨fun reference other same => ?_, fun _ _ _ _ => alike.insert⟩⟩⟩
  · have named : other.group = key.group ∧ other.name = key.name :=
      ⟨(same_iff.mp same).1.symm, (same_iff.mp same).2.1.symm⟩
    rw [named.1, named.2]
    exact ⟨alike.nested? same, alike.hasNested same, alike.keyNamed? key.group key.name,
      alike.insertNested same⟩
  · exact ⟨alike.find? same, alike.contains same⟩

/-- A module as an archive and with another type and scope, and a plain artifact of the same name. -/
theorem Coordinate.order_by_identity_variants :
    let plain : Coordinate := ⟨"g", "p", "1.0", "jar", none, none⟩
    let archive : Coordinate := ⟨"g", "p", "1.0", "jar", some "mule-plugin", none⟩
    let variant : Coordinate := ⟨"g", "p", "1.0", "zip", some "mule-plugin", some "provided"⟩
    let later : Coordinate := ⟨"g", "p", "1.0.1", "jar", none, none⟩
    let model := Model.empty archive
    let artifact (coordinate : Coordinate) : Artifact :=
      ⟨coordinate, some "/p.jar", false, .empty, .empty⟩
    let root := Application.ofRoot (.empty plain)
    plain.order archive = .lt ∧ archive.order variant = .eq ∧ variant.order later = .lt ∧
      plain.order later = .lt ∧
      (∃ left right, root.insertNested archive model = .ok left ∧
        root.insertNested variant model = .ok right ∧ left.NestedAlike right ∧
        left.nested? variant = some model ∧ right.nested? archive = some model ∧
        left.insertNested variant model = .error (.duplicateDefinition variant)) ∧
      ∃ node, (Nodes.ofList [(artifact plain, [archive]), (artifact archive, [])]).find? variant =
        some node ∧ node.Same ⟨variant, artifact variant, [], rfl⟩ := by
  intro plain archive variant later model artifact root
  obtain ⟨coordinates, equalities, _, applications, filled, maps⟩ := order_by_identity
  have same : archive.Same variant := by decide
  have first : plain.order variant = .lt := by decide +kernel
  have second : variant.order later = .lt := by decide +kernel
  obtain ⟨_, _, _, strict⟩ := coordinates plain variant later
  refine ⟨by decide +kernel, (equalities archive variant).1.mpr same, second, strict first second,
    ?_, ?_⟩
  · obtain ⟨_, known, alike⟩ := applications root root
    obtain ⟨_, _, _, outcomes⟩ := alike (known.mpr fun _ => rfl) archive variant same
    rcases outcomes model with ⟨refused, _⟩ | ⟨left, right, inserted, inserted', alike⟩
    · have succeeds : (root.insertNested archive model).isOk = true := by decide +kernel
      rw [refused] at succeeds
      cases succeeds
    · obtain ⟨_, _, nested⟩ := Application.insertNested_ok inserted
      have listed : (archive, model) ∈ left.nested := by
        rw [nested]
        exact mem_insertEntry.mpr (.inl rfl)
      have found : left.nested? variant = some model :=
        Application.nested?_eq_some.mpr ⟨_, listed, same, rfl⟩
      refine ⟨left, right, inserted, inserted', alike, found, ?_, ?_⟩
      · rw [← found]
        exact (alike.nested? same.symm).symm
      · exact Application.insertNested_known (by rw [Application.hasNested_eq, found]; rfl)
  · have pairs := filled [(artifact plain, [archive]), (artifact archive, [])]
      [(artifact plain, [variant]), (artifact variant, [])] (by decide +kernel)
    obtain ⟨_, lookups⟩ := maps _ _
    have answers := ((lookups pairs).1 variant variant rfl).1
    have other : (Nodes.ofList [(artifact plain, [variant]), (artifact variant, [])]).find? variant =
        some ⟨variant, artifact variant, [], rfl⟩ := by
      decide +kernel
    rw [other] at answers
    cases answers with
    | some here => exact ⟨_, rfl, here⟩

end AppBundle
