import Mathlib.Data.List.DropRight
import AppBundle.Text.Blank

namespace AppBundle.Text

/-! What trimming leaves: a text that begins and ends without blanks, and any such text as it is,
whatever stands inside.
-/

variable {drops : Char → Bool} {chars : List Char} {text suffix : String}

theorem trimEndWhile_eq_rdropWhile : trimEndWhile drops chars = chars.rdropWhile drops :=
  rfl

theorem trimWhile_eq_self (head : ∀ char ∈ chars.head?, drops char = false)
    (last : ∀ char ∈ chars.getLast?, drops char = false) : trimWhile drops chars = chars := by
  have front : chars.dropWhile drops = chars := by
    cases chars with
    | nil => rfl
    | cons first rest => simp [head first rfl]
  rw [trimWhile, trimEndWhile_eq_rdropWhile, front, List.rdropWhile_eq_self_iff]
  intro occupied
  have kept := last _ (List.getLast?_eq_some_getLast occupied)
  simpa using kept

/-- Neither the first nor the last character of a text is blank. -/
structure Trimmed (text : String) : Prop where
  head : ∀ char ∈ text.toList.head?, isBlank char = false
  last : ∀ char ∈ text.toList.getLast?, isBlank char = false

/-- The two bounds are decided at the ends of the text: an instance that is left to be found may go
through every character there is. -/
instance : Decidable (Trimmed text) :=
  @decidable_of_iff _ _ ⟨fun ⟨head, last⟩ => ⟨head, last⟩, fun ⟨head, last⟩ => ⟨head, last⟩⟩
    (@instDecidableAnd _ _ (Option.decidableForallMem text.toList.head?)
      (Option.decidableForallMem text.toList.getLast?))

theorem trimmed_trim (text : String) : Trimmed (trim text) := by
  have chars : (trim text).toList = (text.toList.dropWhile isBlank).rdropWhile isBlank := by
    rw [trim, String.toList_ofList, trimWhile, trimEndWhile_eq_rdropWhile]
  refine ⟨fun char member => ?_, fun char member => ?_⟩
  · -- what is dropped at the end leaves the front as it is
    rw [chars] at member
    obtain ⟨rest, front⟩ := List.head?_eq_some_iff.mp member
    have begins := List.rdropWhile_prefix isBlank (text.toList.dropWhile isBlank)
    rw [front] at begins
    obtain ⟨behind, whole⟩ := begins
    have first := List.head?_dropWhile_not isBlank text.toList
    rw [← whole] at first
    simpa using first
  · have occupied : (text.toList.dropWhile isBlank).rdropWhile isBlank ≠ [] := by
      intro empty
      simp [chars, empty] at member
    have kept := List.rdropWhile_last_not isBlank _ occupied
    rw [chars, List.getLast?_eq_some_getLast occupied] at member
    cases member
    simpa using kept

theorem Trimmed.trim_eq (trimmed : Trimmed text) : trim text = text := by
  rw [trim, trimWhile_eq_self trimmed.head trimmed.last, String.ofList_toList]

theorem Trimmed.append (trimmed : Trimmed text) (nonempty : text ≠ "")
    (last : ∀ char ∈ suffix.toList.getLast?, isBlank char = false) : Trimmed (text ++ suffix) := by
  have occupied : text.toList ≠ [] := by simpa using nonempty
  refine ⟨?_, ?_⟩
  · rw [String.toList_append, List.head?_append_of_ne_nil _ occupied]
    exact trimmed.head
  · by_cases empty : suffix.toList = []
    · rw [String.toList_append, empty, List.append_nil]
      exact trimmed.last
    · rw [String.toList_append, List.getLast?_append_of_ne_nil _ empty]
      exact last

theorem trim_of_clean (clean : ∀ char ∈ text.toList, isBlank char = false) : trim text = text :=
  Trimmed.trim_eq
    ⟨fun char first => clean char (List.mem_of_mem_head? first),
      fun char last => clean char (List.mem_of_getLast? last)⟩

end AppBundle.Text
