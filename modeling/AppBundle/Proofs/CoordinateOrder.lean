import AppBundle.Coordinate

namespace AppBundle

/-! Coordinates in order. The order, equality and what a hasher is given are taken from the identity
alone, so that coordinates of one identity may stand for each other wherever keys are compared.
-/

section Comparisons

variable {α : Type} {cmp : α → α → Ordering} [Std.TransCmp cmp]

theorem isLE_self (value : α) : (cmp value value).isLE = true :=
  Ordering.isLE_of_eq_eq Std.ReflCmp.compare_self

theorem isLE_total (left right : α) : ((cmp left right).isLE || (cmp right left).isLE) = true := by
  have swap : cmp right left = (cmp left right).swap := Std.OrientedCmp.eq_swap
  rw [swap]
  cases cmp left right <;> rfl

end Comparisons

/-- One piece of what a hasher is given. In front of a text that may be missing it is told whether
there is one. -/
inductive HashPiece where
  | text (value : String)
  | presence (isThere : Bool)
deriving DecidableEq

namespace Coordinate

variable {left right other : Coordinate}

/-- What a coordinate gives to a hasher, piece by piece. -/
def hashed (coordinate : Coordinate) : List HashPiece :=
  .text coordinate.group :: .text coordinate.name :: .text coordinate.version ::
    match coordinate.classifier with
    | none => [.presence false]
    | some classifier => [.presence true, .text classifier]

theorem same_iff :
    left.Same right ↔
      left.group = right.group ∧ left.name = right.name ∧ left.version = right.version ∧
        left.classifier = right.classifier := by
  simp [Same, identity]

theorem hashed_eq_iff : left.hashed = right.hashed ↔ left.Same right := by
  rw [same_iff, hashed, hashed]
  cases left.classifier <;> cases right.classifier <;> simp

theorem hashCode_congr (same : left.Same right) : left.hashCode = right.hashCode :=
  congrArg hash same

theorem order_eq_iff : left.order right = .eq ↔ left.Same right := by
  constructor
  · intro equal
    exact Std.LawfulEqCmp.eq_of_compare equal
  · intro same
    have same : left.identity = right.identity := same
    rw [order, same]
    exact Std.ReflCmp.compare_self

theorem order_congr {left' right' : Coordinate} (leftSame : left.Same left')
    (rightSame : right.Same right') : left.order right = left'.order right' := by
  have leftSame : left.identity = left'.identity := leftSame
  have rightSame : right.identity = right'.identity := rightSame
  rw [order, order, leftSame, rightSame]

theorem isNamed_congr (same : left.Same right) (group name : String) :
    left.isNamed group name = right.isNamed group name := by
  obtain ⟨sameGroup, sameName, _⟩ := same_iff.mp same
  rw [isNamed, isNamed, sameGroup, sameName]

end Coordinate

end AppBundle
