import AppBundle.Proofs.CoordinateText
import AppBundle.Proofs.Utf8

namespace AppBundle.RawText

/-! Raw texts and the texts that they come from. The UTF-8 of a text determines it, is made and taken
apart piece by piece as the text is, and is what repairing gives back unchanged.
-/

variable {left right raw : RawText} {text other : String} {byte : UInt8} {char : Char}

theorem ext_bytes (same : left.bytes = right.bytes) : left = right := by
  cases left
  cases right
  cases same
  rfl

@[simp]
theorem bytes_append (left right : RawText) : (left ++ right).bytes = left.bytes ++ right.bytes :=
  rfl

@[simp]
theorem bytes_empty : (ofText "").bytes = [] :=
  rfl

@[simp]
theorem bytes_slash : (ofText "/").bytes = [Path.slash] :=
  rfl

@[simp]
theorem bytes_dot : (ofText ".").bytes = [Path.dot] :=
  rfl

@[simp]
theorem bytes_eq_nil_iff : raw.bytes = [] ↔ raw = ofText "" :=
  ⟨ext_bytes, fun same => same ▸ rfl⟩

@[simp]
theorem mk_eq_empty_iff {bytes : List UInt8} : mk bytes = ofText "" ↔ bytes = [] :=
  bytes_eq_nil_iff.symm

@[simp]
theorem append_eq_empty_iff : left ++ right = ofText "" ↔ left = ofText "" ∧ right = ofText "" := by
  rw [← bytes_eq_nil_iff, bytes_append, List.append_eq_nil_iff, bytes_eq_nil_iff, bytes_eq_nil_iff]

instance : Std.TransOrd RawText :=
  inferInstanceAs (Std.TransCmp (compareOn RawText.bytes))

instance : Std.LawfulEqOrd RawText where
  eq_of_compare same := ext_bytes (Std.LawfulEqCmp.eq_of_compare same)

theorem append_assoc (first second third : RawText) :
    first ++ second ++ third = first ++ (second ++ third) :=
  ext_bytes (List.append_assoc ..)

@[simp]
theorem append_empty (raw : RawText) : raw ++ ofText "" = raw :=
  ext_bytes (List.append_nil _)

@[simp]
theorem empty_append (raw : RawText) : ofText "" ++ raw = raw :=
  rfl

@[simp]
theorem size_append (left right : RawText) : (left ++ right).size = left.size + right.size :=
  List.length_append

@[simp]
theorem size_eq_zero_iff : raw.size = 0 ↔ raw = ofText "" :=
  List.length_eq_zero_iff.trans bytes_eq_nil_iff

theorem bytes_ofText (text : String) :
    (ofText text).bytes = text.toList.flatMap String.utf8EncodeChar :=
  Text.toUTF8_bytes text

theorem toByteArray_bytes_ofText (text : String) :
    (ofText text).bytes.toByteArray = text.toByteArray := by
  rw [bytes_ofText, ← String.utf8Encode_toList]
  rfl

theorem ofText_append (text other : String) : ofText (text ++ other) = ofText text ++ ofText other := by
  apply ext_bytes
  simp only [bytes_append, bytes_ofText, String.toList_append, List.flatMap_append]

theorem ofText_injective : Function.Injective ofText := by
  intro text other same
  rw [← String.toByteArray_inj, ← toByteArray_bytes_ofText, same, toByteArray_bytes_ofText]

@[simp]
theorem ofText_inj : ofText text = ofText other ↔ text = other :=
  ofText_injective.eq_iff

theorem ofText_ne (different : text ≠ other) : ofText text ≠ ofText other :=
  ofText_injective.ne different

theorem text?_eq_some_iff : raw.text? = some text ↔ raw = ofText text := by
  rw [text?, String.fromUTF8?]
  constructor
  · intro decoded
    split at decoded
    · apply ext_bytes
      rw [← List.toByteArray_inj, toByteArray_bytes_ofText, ← Option.some.inj decoded]
      rfl
    · cases decoded
  · rintro rfl
    have valid := text.isValidUTF8
    simp only [toByteArray_bytes_ofText, valid, dite_true]
    rfl

@[simp]
theorem text?_ofText (text : String) : (ofText text).text? = some text :=
  text?_eq_some_iff.mpr rfl

theorem isText_iff : raw.isText = true ↔ ∃ text, raw = ofText text := by
  simp only [isText, Option.isSome_iff_exists, text?_eq_some_iff]

@[simp]
theorem isText_ofText (text : String) : (ofText text).isText = true :=
  isText_iff.mpr ⟨text, rfl⟩

@[simp]
theorem shown_ofText (text : String) : (ofText text).shown = text := by
  rw [shown, text?_ofText, Option.getD_some]

theorem ofText_shown_iff : ofText raw.shown = raw ↔ raw.isText = true := by
  constructor
  · intro same
    exact isText_iff.mpr ⟨_, same.symm⟩
  · intro isText
    obtain ⟨text, rfl⟩ := isText_iff.mp isText
    rw [shown_ofText]

theorem ascii_mem_ofText (ascii : char.toNat < 0x80) :
    UInt8.ofNat char.toNat ∈ (ofText text).bytes ↔ char ∈ text.toList := by
  simp only [bytes_ofText, List.mem_flatMap, Text.ascii_mem_utf8EncodeChar ascii, exists_eq_right]

theorem slash_mem_utf8EncodeChar : Path.slash ∈ String.utf8EncodeChar char ↔ char = '/' :=
  Text.ascii_mem_utf8EncodeChar (show '/'.toNat < 0x80 by decide)

@[simp]
theorem slash_mem_ofText : Path.slash ∈ (ofText text).bytes ↔ '/' ∈ text.toList :=
  ascii_mem_ofText (show '/'.toNat < 0x80 by decide)

theorem head?_ofText :
    (ofText text).bytes.head? = some Path.slash ↔ text.toList.head? = some '/' := by
  rw [bytes_ofText]
  cases text.toList with
  | nil => simp
  | cons first rest =>
      rw [List.flatMap_cons, List.head?_append, List.head?_cons, Option.some_inj]
      constructor
      · intro begins
        obtain ⟨byte, bytes, whole⟩ :=
          List.exists_cons_of_ne_nil (String.utf8EncodeChar_ne_nil (c := first))
        rw [whole, List.head?_cons, Option.some_or] at begins
        rw [← slash_mem_utf8EncodeChar, whole, Option.some.inj begins]
        exact List.mem_cons_self ..
      · rintro rfl
        rfl

theorem splitOn_clean_append {front behind : List UInt8} (clean : byte ∉ front) :
    (front ++ behind).splitOn byte = (behind.splitOn byte).modifyHead (front ++ ·) := by
  induction front with
  | nil => exact (congrFun List.modifyHead_id _).symm
  | cons first rest ih =>
      rw [List.mem_cons, not_or] at clean
      rw [List.cons_append, List.splitOn_cons_eq_if_modifyHead, ih clean.2,
        if_neg (by simpa using Ne.symm clean.1), List.modifyHead_modifyHead]
      rfl

theorem separator_not_mem_parts {piece : RawText} (member : piece ∈ raw.parts byte) :
    byte ∉ piece.bytes := by
  obtain ⟨_, there, rfl⟩ := List.mem_map.mp member
  exact Text.separator_not_mem there

/-- Raw texts are taken apart where texts are. -/
theorem parts_ofText (text : String) :
    (ofText text).parts Path.slash = (Text.parts '/' text).map ofText := by
  have chars (chars : List Char) : (chars.flatMap String.utf8EncodeChar).splitOn Path.slash =
      (chars.splitOn '/').map (·.flatMap String.utf8EncodeChar) := by
    induction chars with
    | nil => simp
    | cons char rest ih =>
        rw [List.flatMap_cons, List.splitOn_cons_eq_if_modifyHead]
        by_cases same : char = '/'
        · subst same
          rw [show String.utf8EncodeChar '/' = [] ++ [Path.slash] from rfl, List.append_assoc,
            List.nil_append, List.singleton_append]
          have split := List.splitOn_append_cons_self (a := Path.slash) []
            (rest.flatMap String.utf8EncodeChar)
          rw [List.nil_append] at split
          simp [split, ih]
        · rw [splitOn_clean_append (mt slash_mem_utf8EncodeChar.mp same), ih,
            if_neg (by simpa using same)]
          cases rest.splitOn '/' with
          | nil => rfl
          | cons first others => simp
  rw [parts, bytes_ofText, chars, Text.parts, List.map_map, List.map_map]
  refine List.map_congr_left fun piece _ => ext_bytes ?_
  simp [bytes_ofText]

end AppBundle.RawText
