import Mathlib.Data.Set.Finite.Basic
import AppBundle.Proofs.FileSystem.Location

namespace AppBundle

/-! Places below a directory. A relative path stays below every directory that it is read from where it
never goes further up than it came down before, and ends further down. Any other path leaves some
directory.
-/

/-- A place inside of a directory, at any depth. -/
def Location.Below (directory location : Location) : Prop :=
  ∃ names, names ≠ [] ∧ location = directory ++ names

theorem Location.below_iff {directory location : Location} :
    directory.Below location ↔ directory <+: location ∧ location ≠ directory := by
  constructor
  · rintro ⟨names, some, rfl⟩
    exact ⟨List.prefix_append directory names, by simpa using some⟩
  · rintro ⟨⟨names, rfl⟩, different⟩
    exact ⟨names, by simpa using different, rfl⟩

instance {directory location : Location} : Decidable (directory.Below location) :=
  decidable_of_iff _ Location.below_iff.symm

namespace Path

variable {directory here tail : Location} {names : List RawText} {name fresh : RawText} {depth : Nat}
  {path : Path}

/-- How far down some names lead from a depth, unless they lead above the start. -/
def descend : Nat → List RawText → Option Nat
  | depth, [] => some depth
  | depth, name :: rest =>
      if name = "" ∨ name = "." then descend depth rest
      else if name = ".." then if depth = 0 then none else descend (depth - 1) rest
      else descend (depth + 1) rest

/-- Whether a path leads from a directory to a place inside without leaving it on the way. -/
def StaysBelow (path : Path) : Prop :=
  path.isAbsolute = false ∧ ∃ depth ∈ descend 0 (path.text.parts slash), 0 < depth

instance : Decidable path.StaysBelow :=
  inferInstanceAs (Decidable (_ ∧ ∃ depth ∈ descend 0 _, _))

theorem foldl_of_descend (directory : Location) (tail : Location)
    (descended : descend tail.length names = some depth) :
    ∃ names', names'.length = depth ∧
      names.foldl Location.advance (directory ++ tail) = directory ++ names' := by
  -- the depth is the length of what the names before have led down by
  induction names generalizing tail with
  | nil => exact ⟨tail, Option.some.inj descended, rfl⟩
  | cons name rest ih =>
      rw [List.foldl_cons, Location.advance]
      rw [descend] at descended
      split at descended
      · next stays =>
          rw [if_pos stays]
          exact ih _ descended
      · next moves =>
          rw [if_neg moves]
          split at descended
          · next up =>
              rw [if_pos up]
              split at descended
              · contradiction
              · next inside =>
                  have occupied : tail ≠ [] := fun empty => inside (by simp [empty])
                  rw [List.dropLast_append_of_ne_nil occupied]
                  refine ih _ ?_
                  rwa [List.length_dropLast]
          · next down =>
              rw [if_neg down, List.append_assoc]
              refine ih _ ?_
              rw [List.length_append]
              exact descended

theorem foldl_of_start (directory : Location) (descended : descend 0 names = some depth) :
    ∃ names', names'.length = depth ∧
      names.foldl Location.advance directory = directory ++ names' := by
  have leads := foldl_of_descend directory [] descended
  rwa [List.append_nil] at leads

theorem not_mem_foldl (absent : fresh ∉ names) (outside : fresh ∉ here) :
    fresh ∉ names.foldl Location.advance here := by
  induction names generalizing here with
  | nil => exact outside
  | cons name rest ih =>
      rw [List.mem_cons, not_or] at absent
      refine ih absent.2 ?_
      unfold Location.advance
      split
      · exact outside
      · split
        · exact fun inside => outside (List.dropLast_subset here inside)
        · simpa [outside] using absent.1

/-- Who leads above a directory does not come back into it by other names. -/
theorem not_mem_of_descend (descended : descend tail.length names = none) (absent : fresh ∉ names)
    (outside : fresh ∉ tail) : fresh ∉ names.foldl Location.advance (fresh :: tail) := by
  -- where the depth runs out, the next name takes the directory itself away
  induction names generalizing tail with
  | nil => contradiction
  | cons name rest ih =>
      rw [List.mem_cons, not_or] at absent
      rw [List.foldl_cons, Location.advance]
      rw [descend] at descended
      split at descended
      · next stays =>
          rw [if_pos stays]
          exact ih descended absent.2 outside
      · next moves =>
          rw [if_neg moves]
          split at descended
          · next up =>
              rw [if_pos up]
              split at descended
              · next start =>
                  rw [List.length_eq_zero_iff.mp start]
                  exact not_mem_foldl absent.2 List.not_mem_nil
              · next inside =>
                  have occupied : tail ≠ [] := fun empty => inside (by simp [empty])
                  rw [List.dropLast_cons_of_ne_nil occupied]
                  refine ih ?_ absent.2 fun kept => outside (List.dropLast_subset tail kept)
                  rwa [List.length_dropLast]
          · next down =>
              rw [if_neg down, List.cons_append]
              refine ih (by simpa using descended) absent.2 ?_
              simpa [outside] using absent.1

/-- There are names beside any given ones. -/
theorem exists_fresh (names : List RawText) : ∃ fresh, IsName fresh ∧ fresh ∉ names := by
  let many (count : Nat) : RawText := ⟨List.replicate (count + 3) 0x78⟩
  have injective : Function.Injective many := by
    intro left right same
    have sizes := congrArg RawText.size same
    simpa [many, RawText.size] using sizes
  obtain ⟨_, ⟨count, rfl⟩, absent⟩ :=
    (Set.infinite_range_of_injective injective).exists_notMem_finset names.toFinset
  have clean : slash ∉ (many count).bytes := fun member =>
    absurd (List.eq_of_mem_replicate member) (by decide)
  have long : 2 < (many count).size := by
    rw [RawText.size, List.length_replicate]
    omega
  exact ⟨_, ⟨clean, down_of_long long⟩, by simpa using absent⟩

theorem StaysBelow.below (stays : path.StaysBelow) (directory : Location) :
    directory.Below (path.placeFrom directory) := by
  obtain ⟨relative, depth, descended, positive⟩ := stays
  obtain ⟨names, length, leads⟩ := foldl_of_start directory descended
  refine ⟨names, List.ne_nil_of_length_pos (length ▸ positive), ?_⟩
  rw [placeFrom, relative, ← leads]
  rfl

/-- Paths that stay below are those that lead below every directory. -/
theorem staysBelow_iff :
    path.StaysBelow ↔ ∀ directory : Location, directory.Below (path.placeFrom directory) := by
  refine ⟨StaysBelow.below, fun below => ?_⟩
  obtain ⟨fresh, _, absent⟩ := exists_fresh (path.text.parts slash)
  obtain ⟨names, occupied, leads⟩ := below [fresh]
  have inside : fresh ∈ path.placeFrom [fresh] := leads ▸ List.mem_cons_self ..
  have relative : path.isAbsolute = false := by
    by_contra absolute
    rw [Bool.not_eq_false] at absolute
    rw [placeFrom, if_pos absolute] at inside
    exact not_mem_foldl absent List.not_mem_nil inside
  refine ⟨relative, ?_⟩
  rw [placeFrom, relative] at inside leads
  cases descended : descend 0 (path.text.parts slash) with
  | none =>
      have outside : fresh ∉ ([] : Location) := List.not_mem_nil
      exact absurd inside (not_mem_of_descend descended absent outside)
  | some depth =>
      obtain ⟨names', length, leads'⟩ := foldl_of_start [fresh] descended
      have same : names' = names := List.append_cancel_left (leads'.symm.trans leads)
      exact ⟨depth, rfl, length ▸ same ▸ List.length_pos_of_ne_nil occupied⟩

end Path

end AppBundle
