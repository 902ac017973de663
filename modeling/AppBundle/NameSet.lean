namespace AppBundle

/-!
Finite sets of names, kept ascending by code points. Equal sets have equal lists.
-/

abbrev AscendingNames (names : List String) : Prop :=
  names.Pairwise fun left right => compare left right = .lt

/-- Puts a name at its place in ascending names; one that is there already is not repeated. -/
def insertName (name : String) : List String → List String
  | [] => [name]
  | next :: rest =>
      match compare name next with
      | .lt => name :: next :: rest
      | .eq => next :: rest
      | .gt => next :: insertName name rest

theorem mem_insertName {name other : String} {names : List String} :
    other ∈ insertName name names ↔ other = name ∨ other ∈ names := by
  induction names with
  | nil => simp [insertName]
  | cons next rest ih =>
      simp only [insertName]
      split
      · simp
      · next same =>
          have equal : name = next := Std.LawfulEqCmp.eq_of_compare same
          subst equal
          simp
      · simp only [List.mem_cons, ih]
        constructor
        · rintro (here | here | here) <;> simp [here]
        · rintro (here | here | here) <;> simp [here]

theorem insertName_ascending {name : String} {names : List String}
    (ascending : AscendingNames names) : AscendingNames (insertName name names) := by
  induction names with
  | nil => simp [insertName]
  | cons next rest ih =>
      obtain ⟨first, others⟩ := List.pairwise_cons.mp ascending
      simp only [insertName]
      split
      · next before =>
          refine List.pairwise_cons.mpr ⟨fun other member => ?_, ascending⟩
          rcases List.mem_cons.mp member with rfl | later
          · exact before
          · exact Std.TransCmp.lt_trans before (first other later)
      · exact ascending
      · next after =>
          refine List.pairwise_cons.mpr ⟨fun other member => ?_, ih others⟩
          rcases mem_insertName.mp member with rfl | later
          · exact Std.OrientedCmp.lt_of_gt after
          · exact first other later

/-- A name behind all others goes to the end. -/
theorem insertName_last {name : String} {names : List String}
    (last : ∀ other ∈ names, compare other name = .lt) :
    insertName name names = names ++ [name] := by
  induction names with
  | nil => rfl
  | cons next rest ih =>
      obtain ⟨here, others⟩ := List.forall_mem_cons.mp last
      have after : compare name next = .gt := Std.OrientedCmp.gt_of_lt here
      simp only [insertName, after, ih others, List.cons_append]

structure NameSet where
  names : List String
  ascending : AscendingNames names
deriving DecidableEq

namespace NameSet

def empty : NameSet :=
  ⟨[], .nil⟩

instance : Inhabited NameSet := ⟨empty⟩

instance : Membership String NameSet := ⟨fun set name => name ∈ set.names⟩

def insert (set : NameSet) (name : String) : NameSet :=
  ⟨insertName name set.names, insertName_ascending set.ascending⟩

@[simp]
theorem mem_insert {set : NameSet} {name other : String} :
    other ∈ set.insert name ↔ other = name ∨ other ∈ set :=
  mem_insertName

def ofList (names : List String) : NameSet :=
  names.foldl insert empty

theorem names_foldl_insert {set : NameSet} {names : List String}
    (ascending : AscendingNames (set.names ++ names)) :
    (names.foldl insert set).names = set.names ++ names := by
  induction names generalizing set with
  | nil => rw [List.foldl_nil, List.append_nil]
  | cons name rest ih =>
      have last : ∀ other ∈ set.names, compare other name = .lt := fun other member =>
        (List.pairwise_append.mp ascending).2.2 other member name (List.mem_cons_self ..)
      have inserted : (set.insert name).names = set.names ++ [name] := insertName_last last
      rw [List.append_cons, ← inserted] at ascending ⊢
      exact ih ascending

/-- Collecting the names of a set gives the set. -/
theorem ofList_names (set : NameSet) : ofList set.names = set := by
  have collected : (ofList set.names).names = set.names :=
    names_foldl_insert (show AscendingNames (empty.names ++ set.names) from set.ascending)
  cases set
  exact (mk.injEq ..).mpr collected

def isEmpty (set : NameSet) : Bool :=
  set.names.isEmpty

theorem eq_empty_of_isEmpty {set : NameSet} (none : set.isEmpty = true) : set = empty := by
  cases set
  exact (mk.injEq ..).mpr (List.isEmpty_iff.mp none)

def size (set : NameSet) : Nat :=
  set.names.length

end NameSet

end AppBundle
