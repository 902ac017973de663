import AppBundle.Json.Number
import AppBundle.Text.Utf8

namespace AppBundle.Json

/-!
The tokens of a JSON text. Scanning never fails: where no token begins, `invalid` is the last
token, so that a reader of values can come to an earlier objection of its own first.
-/

inductive Token where
  | openArray
  | closeArray
  | openObject
  | closeObject
  | comma
  | colon
  | null
  | boolean (value : Bool)
  | number (numeral : Numeral)
  | text (value : String)
  /-- A string in good form that stands for no text: it holds half of a surrogate pair or a stray
  byte. -/
  | unreadable
  | invalid
deriving DecidableEq

def isSpace (char : Char) : Bool :=
  char = ' ' || char = '\n' || char = '\t' || char = '\x0d'

def hexDigit? (char : Char) : Option Nat :=
  let code := char.toNat
  if 48 ≤ code ∧ code ≤ 57 then some (code - 48)
  else if 97 ≤ code ∧ code ≤ 102 then some (code - 87)
  else if 65 ≤ code ∧ code ≤ 70 then some (code - 55)
  else none

/-- The character a short escape stands for. -/
def shortEscape? (char : Char) : Option Char :=
  if char = '"' ∨ char = '\\' ∨ char = '/' then some char
  else if char = 'b' then some '\x08'
  else if char = 'f' then some '\x0c'
  else if char = 'n' then some '\n'
  else if char = 'r' then some '\x0d'
  else if char = 't' then some '\t'
  else none

/-- The UTF-16 unit of four hexadecimal digits. -/
def unit? (first second third fourth : Option Char) : Option Nat := do
  let a ← (← first) |> hexDigit?
  let b ← (← second) |> hexDigit?
  let c ← (← third) |> hexDigit?
  let d ← (← fourth) |> hexDigit?
  return ((a * 16 + b) * 16 + c) * 16 + d

/-- What a string holds so far. -/
inductive Content where
  /-- Its characters, the last one first. -/
  | read (backwards : List Char)
  /-- The same, and the first half of a surrogate pair. -/
  | half (high : Nat) (backwards : List Char)
  | unreadable

def Content.push (char : Char) : Content → Content
  | read backwards => read (char :: backwards)
  | _ => unreadable

/-- Adds a UTF-16 unit; the second half of a pair completes the first. -/
def Content.pushUnit (unit : Nat) : Content → Content
  | read backwards =>
      if 0xDC00 ≤ unit ∧ unit ≤ 0xDFFF then unreadable
      else if 0xD800 ≤ unit ∧ unit ≤ 0xDBFF then half unit backwards
      else read (Char.ofNat unit :: backwards)
  | half high backwards =>
      if 0xDC00 ≤ unit ∧ unit ≤ 0xDFFF then
        read (Char.ofNat (0x10000 + (high - 0xD800) * 0x400 + (unit - 0xDC00)) :: backwards)
      else unreadable
  | unreadable => unreadable

def Content.token : Content → Token
  | read backwards => .text (String.ofList backwards.reverse)
  | _ => .unreadable

/-- Scans a string after its opening quote. Nothing comes back where the string is not closed,
holds a control character or has a bad escape. -/
def scanString (content : Content) : List (Option Char) → Option (Token × List (Option Char))
  | [] => none
  | none :: rest => scanString .unreadable rest
  | some '"' :: rest => some (content.token, rest)
  | some '\\' :: some 'u' :: a :: b :: c :: d :: rest =>
      match unit? a b c d with
      | none => none
      | some unit => scanString (content.pushUnit unit) rest
  | some '\\' :: some escape :: rest =>
      match shortEscape? escape with
      | none => none
      | some char => scanString (content.push char) rest
  | some '\\' :: _ => none
  | some char :: rest => if char.toNat < 0x20 then none else scanString (content.push char) rest

theorem scanString_shorter {content : Content} {input rest : List (Option Char)} {token : Token}
    (scanned : scanString content input = some (token, rest)) : rest.length < input.length := by
  fun_induction scanString content input with
  | case1 => cases scanned
  | case2 content tail ih => exact Nat.lt_succ_of_lt (ih scanned)
  | case3 content tail =>
      cases scanned
      exact Nat.lt_succ_self _
  | case4 => cases scanned
  | case5 content a b c d tail unit valid ih =>
      have shorter := ih scanned
      simp only [List.length_cons]
      omega
  | case6 => cases scanned
  | case7 content escape tail notUnit char valid ih =>
      have shorter := ih scanned
      simp only [List.length_cons]
      omega
  | case8 => cases scanned
  | case9 => cases scanned
  | case10 =>
      rename_i shorter
      exact Nat.lt_succ_of_lt (shorter scanned)

def scanDigits : List (Option Char) → List Nat × List (Option Char)
  | some char :: rest =>
      if char.isDigit then
        let (digits, left) := scanDigits rest
        ((char.toNat - 48) :: digits, left)
      else ([], some char :: rest)
  | input => ([], input)

/-- The fraction of a number. A point asks for digits after it. -/
def scanFraction : List (Option Char) → Option (List Nat × List (Option Char))
  | some '.' :: rest =>
      let (digits, left) := scanDigits rest
      if digits.isEmpty then none else some (digits, left)
  | input => some ([], input)

def scanSign : List (Option Char) → Bool × List (Option Char)
  | some '-' :: rest => (true, rest)
  | some '+' :: rest => (false, rest)
  | input => (false, input)

def scanExponent :
    List (Option Char) → Option (Option (Bool × List Nat) × List (Option Char))
  | some char :: rest =>
      if char = 'e' ∨ char = 'E' then
        let (below, unsigned) := scanSign rest
        let (digits, left) := scanDigits unsigned
        if digits.isEmpty then none else some (some (below, digits), left)
      else some (none, some char :: rest)
  | input => some (none, input)

/-- Scans a number after its sign. A leading zero is the only whole digit. -/
def scanNumber (negative : Bool) (input : List (Option Char)) :
    Option (Token × List (Option Char)) :=
  let (whole, left) := scanDigits input
  match whole with
  | [] => none
  | 0 :: _ :: _ => none
  | _ =>
      match scanFraction left with
      | none => none
      | some (fraction, left) =>
          match scanExponent left with
          | none => none
          | some (exponent, left) => some (.number ⟨negative, whole, fraction, exponent⟩, left)

/-- Scans a word that stands for one token. -/
def scanWord (token : Token) : List Char → List (Option Char) →
    Option (Token × List (Option Char))
  | [], rest => some (token, rest)
  | expected :: word, some char :: rest =>
      if char = expected then scanWord token word rest else none
  | _ :: _, _ => none

def scanToken (first : Char) (rest : List (Option Char)) : Option (Token × List (Option Char)) :=
  match first with
  | '[' => some (.openArray, rest)
  | ']' => some (.closeArray, rest)
  | '\x7b' => some (.openObject, rest)
  | '\x7d' => some (.closeObject, rest)
  | ',' => some (.comma, rest)
  | ':' => some (.colon, rest)
  | '"' => scanString (.read []) rest
  | 'n' => scanWord .null ['u', 'l', 'l'] rest
  | 't' => scanWord (.boolean true) ['r', 'u', 'e'] rest
  | 'f' => scanWord (.boolean false) ['a', 'l', 's', 'e'] rest
  | '-' => scanNumber true rest
  | _ => if first.isDigit then scanNumber false (some first :: rest) else none

theorem scanDigits_length (input : List (Option Char)) :
    (scanDigits input).2.length + (scanDigits input).1.length = input.length := by
  induction input with
  | nil => rfl
  | cons head rest ih =>
      cases head with
      | none => rfl
      | some char =>
          simp only [scanDigits]
          split
          · simp only [List.length_cons]
            omega
          · rfl

theorem scanFraction_length {input left : List (Option Char)} {digits : List Nat}
    (scanned : scanFraction input = some (digits, left)) : left.length ≤ input.length := by
  unfold scanFraction at scanned
  split at scanned
  · next rest =>
      have count := scanDigits_length rest
      simp only at scanned
      split at scanned
      · cases scanned
      · cases scanned
        simp only [List.length_cons]
        omega
  · cases scanned
    exact Nat.le_refl _

theorem scanSign_length (input : List (Option Char)) :
    (scanSign input).2.length ≤ input.length := by
  unfold scanSign
  split <;> simp

theorem scanExponent_length {input left : List (Option Char)} {found : Option (Bool × List Nat)}
    (scanned : scanExponent input = some (found, left)) : left.length ≤ input.length := by
  unfold scanExponent at scanned
  split at scanned
  · next char rest =>
      have sign := scanSign_length rest
      have count := scanDigits_length (scanSign rest).2
      simp only at scanned
      split at scanned
      · split at scanned
        · cases scanned
        · cases scanned
          simp only [List.length_cons]
          omega
      · cases scanned
        exact Nat.le_refl _
  · cases scanned
    exact Nat.le_refl _

theorem scanNumber_shorter {negative : Bool} {input rest : List (Option Char)} {token : Token}
    (scanned : scanNumber negative input = some (token, rest)) : rest.length < input.length := by
  have count := scanDigits_length input
  unfold scanNumber at scanned
  generalize whole : scanDigits input = digits at scanned count
  obtain ⟨digits, left⟩ := digits
  simp only at scanned count
  split at scanned
  · cases scanned
  · cases scanned
  · next nonempty _ =>
      have positive : 0 < digits.length :=
        List.length_pos_iff.mpr fun empty => nonempty empty
      split at scanned
      · cases scanned
      · next fraction afterFraction scannedFraction =>
          have fractionLength := scanFraction_length scannedFraction
          split at scanned
          · cases scanned
          · next exponent afterExponent scannedExponent =>
              have exponentLength := scanExponent_length scannedExponent
              cases scanned
              omega

theorem scanWord_length {token found : Token} {word : List Char} {input rest : List (Option Char)}
    (scanned : scanWord token word input = some (found, rest)) : rest.length ≤ input.length := by
  fun_induction scanWord token word input with
  | case1 =>
      cases scanned
      exact Nat.le_refl _
  | case2 expected word rest ih => exact Nat.le_succ_of_le (ih scanned)
  | case3 => cases scanned
  | case4 => cases scanned

theorem scanToken_length {first : Char} {input rest : List (Option Char)} {token : Token}
    (scanned : scanToken first input = some (token, rest)) : rest.length ≤ input.length := by
  unfold scanToken at scanned
  split at scanned
  · cases scanned; exact Nat.le_refl _
  · cases scanned; exact Nat.le_refl _
  · cases scanned; exact Nat.le_refl _
  · cases scanned; exact Nat.le_refl _
  · cases scanned; exact Nat.le_refl _
  · cases scanned; exact Nat.le_refl _
  · exact Nat.le_of_lt (scanString_shorter scanned)
  · exact scanWord_length scanned
  · exact scanWord_length scanned
  · exact scanWord_length scanned
  · exact Nat.le_of_lt (scanNumber_shorter scanned)
  · split at scanned
    · exact Nat.le_of_lt_succ (scanNumber_shorter scanned)
    · cases scanned

def tokens : List (Option Char) → List Token
  | [] => []
  | none :: _ => [.invalid]
  | some char :: rest =>
      if isSpace char then tokens rest
      else
        match scanned : scanToken char rest with
        | none => [.invalid]
        | some (token, left) =>
            have _shorter : left.length ≤ rest.length := scanToken_length scanned
            token :: tokens left
termination_by input => input.length
decreasing_by all_goals (simp only [List.length_cons]; omega)

end AppBundle.Json
