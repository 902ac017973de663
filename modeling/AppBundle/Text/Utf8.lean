namespace AppBundle.Text

/-!
Bytes read as UTF-8. Where the bytes at hand begin no character, one byte is passed over as a
stray, so that a reader can refuse it exactly where it stands.
-/

def continuation? (byte : UInt8) : Option Nat :=
  if byte.toNat / 64 = 2 then some (byte.toNat % 64) else none

/-- The code point that the continuation bytes complete, unless it has a shorter form or is no
character. -/
def completed (lead least : Nat) (rest : List UInt8) : Option Char := do
  let bytes ← rest.mapM continuation?
  let code := bytes.foldl (fun code bits => code * 64 + bits) lead
  if least ≤ code ∧ code.isValidChar then some (Char.ofNat code) else none

/-- The character at the head of the bytes and the number of bytes that follow its first. -/
def headChar? (lead : UInt8) (rest : List UInt8) : Option (Char × Nat) :=
  let code := lead.toNat
  let multi (bits least count : Nat) : Option (Char × Nat) :=
    if rest.length < count then none
    else (completed bits least (rest.take count)).map (·, count)
  if code < 0x80 then some (Char.ofNat code, 0)
  else if code < 0xC0 then none
  else if code < 0xE0 then multi (code - 0xC0) 0x80 1
  else if code < 0xF0 then multi (code - 0xE0) 0x800 2
  else if code < 0xF8 then multi (code - 0xF0) 0x10000 3
  else none

/-- The characters of the bytes, with nothing in the place of each stray byte. -/
def scalarsOf : List UInt8 → List (Option Char)
  | [] => []
  | lead :: rest =>
      match headChar? lead rest with
      | none => none :: scalarsOf rest
      | some (char, count) => some char :: scalarsOf (rest.drop count)
termination_by bytes => bytes.length
decreasing_by all_goals (simp only [List.length_cons, List.length_drop]; omega)

/-- What a lead byte asks for: the range of the byte after it, and how many bytes follow that. -/
def following? (lead : Nat) : Option (Nat × Nat × Nat) :=
  if lead < 0xC2 then none
  else if lead < 0xE0 then some (0x80, 0xBF, 0)
  else if lead = 0xE0 then some (0xA0, 0xBF, 1)
  else if lead = 0xED then some (0x80, 0x9F, 1)
  else if lead < 0xF0 then some (0x80, 0xBF, 1)
  else if lead = 0xF0 then some (0x90, 0xBF, 2)
  else if lead < 0xF4 then some (0x80, 0xBF, 2)
  else if lead = 0xF4 then some (0x80, 0x8F, 2)
  else none

/-- How many bytes after a stray lead byte belong to the character that it breaks off. -/
def brokenCount (lead : UInt8) (rest : List UInt8) : Nat :=
  match following? lead.toNat, rest with
  | some (least, most, more), second :: others =>
      if least ≤ second.toNat ∧ second.toNat ≤ most then
        1 + ((others.take more).takeWhile fun byte => (continuation? byte).isSome).length
      else 0
  | _, _ => 0

/-- What stands for bytes that are no UTF-8. -/
def replacement : Char := Char.ofNat 0xFFFD

/-- The characters of the bytes; one replacement stands for each character that breaks off. -/
def repaired : List UInt8 → List Char
  | [] => []
  | lead :: rest =>
      match headChar? lead rest with
      | none => replacement :: repaired (rest.drop (brokenCount lead rest))
      | some (char, count) => char :: repaired (rest.drop count)
termination_by bytes => bytes.length
decreasing_by all_goals (simp only [List.length_cons, List.length_drop]; omega)

def scalars (text : String) : List (Option Char) :=
  text.toList.map some

def contentScalars (content : ByteArray) : List (Option Char) :=
  match String.fromUTF8? content with
  | some text => scalars text
  | none => scalarsOf content.toList

end AppBundle.Text
