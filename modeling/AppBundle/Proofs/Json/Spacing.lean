import AppBundle.Proofs.Json.Scan
import AppBundle.Proofs.Utf8

namespace AppBundle.Json

/-! White space between tokens. Deleting it from a text takes no more than to know at each place
whether a string is open and whether a backslash is in front. That is the same for the characters
and for their bytes, as no byte of a longer character is that of a quote, a backslash or a space.
-/

inductive Position where
  | outside
  | inString
  /-- Behind a backslash. -/
  | escaped
deriving DecidableEq

/-- What a character or a byte means for the bounds of strings. -/
inductive Role where
  | quote
  | backslash
  | space
  | plain
deriving DecidableEq

def Role.of (code : Nat) : Role :=
  if code = 0x22 then quote
  else if code = 0x5C then backslash
  else if code = 0x20 ∨ code = 0x0A ∨ code = 0x09 ∨ code = 0x0D then space
  else plain

def Position.next : Position → Role → Position
  | outside, .quote => inString
  | outside, _ => outside
  | inString, .quote => outside
  | inString, .backslash => escaped
  | inString, _ => inString
  | escaped, _ => inString

/-- Deletes the white space outside of strings. -/
def dropSpaces {α : Type} (code : α → Nat) (position : Position) : List α → List α
  | [] => []
  | unit :: rest =>
      let role := Role.of (code unit)
      let others := dropSpaces code (position.next role) rest
      if position = .outside ∧ role = .space then others else unit :: others

/-- A JSON text in UTF-8 without the white space outside of its strings. -/
def withoutSpaces (content : ByteArray) : ByteArray :=
  (dropSpaces UInt8.toNat .outside content.data.toList).toByteArray

section Units

variable {α : Type} {code : α → Nat} {position : Position} {unit : α} {units rest : List α}

theorem dropSpaces_space (space : Role.of (code unit) = .space) :
    dropSpaces code .outside (unit :: rest) = dropSpaces code .outside rest := by
  rw [dropSpaces, space, if_pos ⟨rfl, rfl⟩]
  rfl

theorem dropSpaces_kept (kept : position = .outside → Role.of (code unit) ≠ .space) :
    dropSpaces code position (unit :: rest) =
      unit :: dropSpaces code (position.next (Role.of (code unit))) rest := by
  rw [dropSpaces, if_neg fun both => kept both.1 both.2]

theorem dropSpaces_solid (solid : Role.of (code unit) = .plain) :
    dropSpaces code .outside (unit :: rest) = unit :: dropSpaces code .outside rest := by
  rw [dropSpaces_kept (by simp [solid]), solid]
  rfl

theorem dropSpaces_blank (spaces : ∀ unit ∈ units, Role.of (code unit) = .space) :
    dropSpaces code .outside (units ++ rest) = dropSpaces code .outside rest := by
  induction units with
  | nil => rfl
  | cons unit units ih =>
      obtain ⟨space, others⟩ := List.forall_mem_cons.mp spaces
      rw [List.cons_append, dropSpaces_space space, ih others]

/-- Plain units are kept, and only the first of them can change where the next one stands. -/
theorem dropSpaces_plain (some : units ≠ [])
    (plain : ∀ unit ∈ units, Role.of (code unit) = .plain) :
    dropSpaces code position (units ++ rest) =
      units ++ dropSpaces code (position.next .plain) rest := by
  induction units generalizing position with
  | nil => exact absurd rfl some
  | cons unit units ih =>
      obtain ⟨here, others⟩ := List.forall_mem_cons.mp plain
      rw [List.cons_append, dropSpaces_kept (by simp [here]), here]
      cases units with
      | nil => rfl
      | cons second units =>
          have settled : (position.next .plain).next .plain = position.next .plain := by
            cases position <;> rfl
          rw [ih (List.cons_ne_nil _ _) others, settled]
          rfl

end Units

section Bytes

variable {char : Char}

theorem role_plain {code : Nat} (solid : code ≠ 0x20 ∧ code ≠ 0x0A ∧ code ≠ 0x09 ∧ code ≠ 0x0D)
    (unbound : code ≠ 0x22 ∧ code ≠ 0x5C) : Role.of code = .plain := by
  simp [Role.of, solid, unbound]

theorem role_long {code : Nat} (long : 0x80 ≤ code) : Role.of code = .plain :=
  role_plain (by omega) (by omega)

theorem dropSpaces_encoded (position : Position) (chars : List Char) :
    dropSpaces UInt8.toNat position (chars.flatMap String.utf8EncodeChar) =
      (dropSpaces Char.toNat position chars).flatMap String.utf8EncodeChar := by
  induction chars generalizing position with
  | nil => rfl
  | cons char rest ih =>
      rw [List.flatMap_cons]
      by_cases ascii : char.toNat < 0x80
      · have encoded := Text.utf8EncodeChar_ascii ascii
        rw [encoded, List.singleton_append, dropSpaces, dropSpaces, Text.toNat_ofNat_ascii ascii]
        split
        · exact ih _
        · rw [List.flatMap_cons, encoded, ← ih]
          rfl
      · -- several plain bytes lead where the one plain character does
        have long : 0x80 ≤ char.toNat := by omega
        have bytes := Text.utf8EncodeChar_long long
        have plain := role_long long
        rw [dropSpaces_plain String.utf8EncodeChar_ne_nil
            fun byte member => role_long (bytes byte member),
          dropSpaces_kept (by simp [plain]), plain, List.flatMap_cons, ih]

theorem withoutSpaces_toUTF8 (text : String) :
    withoutSpaces text.toUTF8 =
      (String.ofList (dropSpaces Char.toNat .outside text.toList)).toUTF8 := by
  rw [withoutSpaces, Text.toUTF8_bytes, dropSpaces_encoded, String.toUTF8_eq_toByteArray,
    String.toByteArray_ofList]
  rfl

end Bytes

variable {char : Char} {layout : Layout} {rest : List Char}

theorem role_isSpace (space : isSpace char = true) : Role.of char.toNat = .space := by
  simp only [isSpace, Bool.or_eq_true, decide_eq_true_eq] at space
  rcases space with ((rfl | rfl) | rfl) | rfl <;> rfl

theorem dropSpaces_spaces {blank : List Char} (spaces : ∀ char ∈ blank, isSpace char = true) :
    dropSpaces Char.toNat .outside (blank ++ rest) = dropSpaces Char.toNat .outside rest :=
  dropSpaces_blank fun char member => role_isSpace (spaces char member)

theorem role_digitChar : ∀ digit < 16, Role.of digit.digitChar.toNat = .plain := by
  decide

theorem dropSpaces_controlEscape (control : char.toNat < 0x20) :
    dropSpaces Char.toNat .inString (controlEscape char ++ rest) =
      controlEscape char ++ dropSpaces Char.toNat .inString rest := by
  generalize same : char.toNat = code at control
  obtain rfl : char = Char.ofNat code := by rw [← same, Char.ofNat_toNat]
  have digits : ∀ char ∈ [(code / 16).digitChar, (code % 16).digitChar],
      Role.of char.toNat = .plain := by
    simp only [List.forall_mem_cons]
    refine ⟨role_digitChar _ (by omega), role_digitChar _ (by omega), ?_⟩
    exact fun _ member => absurd member List.not_mem_nil
  have kept : dropSpaces Char.toNat .inString
      ([(code / 16).digitChar, (code % 16).digitChar] ++ rest) =
        [(code / 16).digitChar, (code % 16).digitChar] ++ dropSpaces Char.toNat .inString rest :=
    dropSpaces_plain (List.cons_ne_nil _ _) digits
  rw [controlEscape_digits code control]
  exact congrArg (['\\', 'u', '0', '0'] ++ ·) kept

theorem next_inString (notQuote : char ≠ '"') (notBackslash : char ≠ '\\') :
    Position.inString.next (Role.of char.toNat) = .inString := by
  have quote : char.toNat ≠ 0x22 := fun same => notQuote (Char.toNat_inj.mp same)
  have backslash : char.toNat ≠ 0x5C := fun same => notBackslash (Char.toNat_inj.mp same)
  rw [Role.of, if_neg quote, if_neg backslash]
  split
  · rfl
  · rfl

/-- In a string the written form of one character is kept and does not end the string. -/
theorem dropSpaces_escapedChar (char : Char) :
    dropSpaces Char.toNat .inString (escapedChar char ++ rest) =
      escapedChar char ++ dropSpaces Char.toNat .inString rest := by
  unfold escapedChar
  split
  · rfl
  split
  · rfl
  split
  · rfl
  split
  · rfl
  split
  · rfl
  split
  · rfl
  split
  · rfl
  split
  · next control => exact dropSpaces_controlEscape control
  · next notQuote notBackslash _ _ _ _ _ _ =>
      rw [List.singleton_append, dropSpaces_kept (fun here => by cases here),
        next_inString notQuote notBackslash]
      rfl

theorem dropSpaces_writeText (text : String) :
    dropSpaces Char.toNat .outside (writeText text ++ rest) =
      writeText text ++ dropSpaces Char.toNat .outside rest := by
  have written (chars : List Char) : dropSpaces Char.toNat .inString
      (chars.flatMap escapedChar ++ '"' :: rest) =
        chars.flatMap escapedChar ++ '"' :: dropSpaces Char.toNat .outside rest := by
    induction chars with
    | nil => rfl
    | cons char chars ih =>
        rw [List.flatMap_cons, List.append_assoc, dropSpaces_escapedChar, ih, List.append_assoc]
  simp only [writeText, List.cons_append, List.append_assoc, List.nil_append]
  exact congrArg (List.cons '"') (written text.toList)

theorem role_isDigit (digit : char.isDigit = true) : Role.of char.toNat = .plain := by
  have code : char.val.toNat = char.toNat := rfl
  simp only [Char.isDigit, Bool.and_eq_true, decide_eq_true_eq, ge_iff_le, UInt32.le_iff_toNat_le,
    code] at digit
  have bounds : 48 ≤ char.toNat ∧ char.toNat ≤ 57 := digit
  exact role_plain (by omega) (by omega)

-- Between two tokens the layout's white space is dropped, and each token is kept as a whole. What is
-- written behind a value goes along as a parameter, for the deletion is outside of strings again.
mutual

/-- Of a value in any layout the compact form is left. -/
theorem dropSpaces_write (blank : layout.Blank) (depth : Nat) (value : Json) (rest : List Char) :
    dropSpaces Char.toNat .outside (write layout depth value ++ rest) =
      write .compact depth value ++ dropSpaces Char.toNat .outside rest := by
  match value with
  | null => rfl
  | boolean true => rfl
  | boolean false => rfl
  | natural value =>
      exact dropSpaces_plain Nat.toDigits_ne_nil fun char member =>
        role_isDigit (isDigit_toDigits value char member)
  | text value => exact dropSpaces_writeText value
  | array [] => rfl
  | object [] => rfl
  | array (item :: items) =>
      simp only [write, List.cons_append, List.append_assoc, List.nil_append]
      rw [dropSpaces_solid rfl, dropSpaces_spaces (blank.lineBreak _), dropSpaces_write blank,
        dropSpaces_writeItems blank, dropSpaces_spaces (blank.lineBreak _), dropSpaces_solid rfl]
      rfl
  | object (member :: members) =>
      simp only [write, List.cons_append, List.append_assoc, List.nil_append]
      rw [dropSpaces_solid rfl, dropSpaces_spaces (blank.lineBreak _), dropSpaces_writeMember blank,
        dropSpaces_writeMembers blank, dropSpaces_spaces (blank.lineBreak _), dropSpaces_solid rfl]
      rfl

theorem dropSpaces_writeItems (blank : layout.Blank) (depth : Nat) (items : List Json)
    (rest : List Char) :
    dropSpaces Char.toNat .outside (writeItems layout depth items ++ rest) =
      writeItems .compact depth items ++ dropSpaces Char.toNat .outside rest := by
  match items with
  | [] => rfl
  | item :: items =>
      simp only [writeItems, List.cons_append, List.append_assoc]
      rw [dropSpaces_solid rfl, dropSpaces_spaces (blank.lineBreak _), dropSpaces_write blank,
        dropSpaces_writeItems blank]
      rfl

theorem dropSpaces_writeMember (blank : layout.Blank) (depth : Nat) (member : String × Json)
    (rest : List Char) :
    dropSpaces Char.toNat .outside (writeMember layout depth member ++ rest) =
      writeMember .compact depth member ++ dropSpaces Char.toNat .outside rest := by
  match member with
  | (key, value) =>
      simp only [writeMember, List.cons_append, List.append_assoc]
      rw [dropSpaces_writeText, dropSpaces_solid rfl, dropSpaces_spaces blank.afterColon,
        dropSpaces_write blank]
      rfl

theorem dropSpaces_writeMembers (blank : layout.Blank) (depth : Nat)
    (members : List (String × Json)) (rest : List Char) :
    dropSpaces Char.toNat .outside (writeMembers layout depth members ++ rest) =
      writeMembers .compact depth members ++ dropSpaces Char.toNat .outside rest := by
  match members with
  | [] => rfl
  | member :: members =>
      simp only [writeMembers, List.cons_append, List.append_assoc]
      rw [dropSpaces_solid rfl, dropSpaces_spaces (blank.lineBreak _), dropSpaces_writeMember blank,
        dropSpaces_writeMembers blank]
      rfl

end

/-- Rendered pretty or not, a value without white space is its compact form. -/
theorem withoutSpaces_render (value : Json) (pretty : Bool) :
    withoutSpaces (value.render pretty).toUTF8 = (value.render false).toUTF8 := by
  have dropped := dropSpaces_write (Layout.blank_of pretty) 0 value []
  rw [List.append_nil] at dropped
  rw [withoutSpaces_toUTF8, render, String.toList_ofList, dropped]
  exact congrArg (fun chars => (String.ofList chars).toUTF8) (List.append_nil _)

example : withoutSpaces ((array [text "a \" b\\", natural 7]).render true).toUTF8 =
    "[\"a \\\" b\\\\\",7]".toUTF8 := by
  decide +kernel

end AppBundle.Json
