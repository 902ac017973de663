import AppBundle.Text.Utf8

namespace AppBundle.Text

/-! Characters of one byte. Their bytes stand for them wherever they are found in UTF-8: no longer
character has one of them, and none of them is read, or comes in by repairing, from anything else.
-/

variable {char least : Char} {byte : UInt8}

theorem utf8EncodeChar_ascii (ascii : char.toNat < 0x80) :
    String.utf8EncodeChar char = [UInt8.ofNat char.toNat] := by
  have code : char.val.toNat = char.toNat := rfl
  simp only [String.utf8EncodeChar, code]
  rw [if_pos (by omega)]

/-- Every byte of a longer character adds its bits to 0x80 or more. -/
theorem utf8EncodeChar_long (long : 0x80 ≤ char.toNat) :
    ∀ byte ∈ String.utf8EncodeChar char, 0x80 ≤ byte.toNat := by
  have code : char.val.toNat = char.toNat := rfl
  simp only [String.utf8EncodeChar, code]
  rw [if_neg (by omega)]
  split
  case' isFalse => split
  all_goals
    simp only [List.forall_mem_cons, List.not_mem_nil, false_implies, implies_true, and_true,
      UInt8.toNat_ofNat']
    omega

theorem toNat_ofNat_ascii (ascii : char.toNat < 0x80) :
    (UInt8.ofNat char.toNat).toNat = char.toNat := by
  rw [UInt8.toNat_ofNat']
  omega

theorem ascii_mem_utf8EncodeChar (ascii : least.toNat < 0x80) :
    UInt8.ofNat least.toNat ∈ String.utf8EncodeChar char ↔ char = least := by
  rcases Nat.lt_or_ge char.toNat 0x80 with short | long
  · rw [utf8EncodeChar_ascii short, List.mem_singleton, ← UInt8.toNat_inj, toNat_ofNat_ascii ascii,
      toNat_ofNat_ascii short, Char.toNat_inj, eq_comm]
  · refine iff_of_false (fun member => ?_) (by rintro rfl; omega)
    have most := utf8EncodeChar_long long _ member
    rw [toNat_ofNat_ascii ascii] at most
    omega

theorem toUTF8_bytes (text : String) :
    text.toUTF8.data.toList = text.toList.flatMap String.utf8EncodeChar := by
  rw [String.toUTF8_eq_toByteArray, ← String.utf8Encode_toList, List.utf8Encode,
    List.toList_data_toByteArray]

end AppBundle.Text
