import AppBundle.Text.Blank

namespace AppBundle.Xml

/-!
Character references. A writer escapes the three characters that markup is made of; a reader knows
five names and the numbers of characters.
-/

/-- What separates words in markup. -/
def isSpace (char : Char) : Bool :=
  char == ' ' || char == '\t' || char == '\n' || char == '\x0d'

def escapedChar (char : Char) : List Char :=
  if char = '&' then ['&', 'a', 'm', 'p', ';']
  else if char = '<' then ['&', 'l', 't', ';']
  else if char = '>' then ['&', 'g', 't', ';']
  else [char]

def escape (chars : List Char) : List Char :=
  chars.flatMap escapedChar

def named : List (List Char × Char) :=
  [(['a', 'm', 'p'], '&'), (['l', 't'], '<'), (['g', 't'], '>'), (['q', 'u', 'o', 't'], '"'),
    (['a', 'p', 'o', 's'], '\x27')]

/-- The value of a digit in a base up to sixteen. -/
def digit? (base : Nat) (char : Char) : Option Nat :=
  let value :=
    if char.isDigit then char.toNat - '0'.toNat
    else if 'a' ≤ char ∧ char ≤ 'f' then char.toNat - 'a'.toNat + 10
    else if 'A' ≤ char ∧ char ≤ 'F' then char.toNat - 'A'.toNat + 10
    else base
  if value < base then some value else none

/-- The number that some digits, at least one, stand for. -/
def number? (base : Nat) (digits : List Char) : Option Nat :=
  if digits = [] then none
  else (digits.mapM (digit? base)).map fun values =>
    values.foldl (fun total value => total * base + value) 0

/-- The character of a number; the null character has none. -/
def numbered? (code : Nat) : Option Char :=
  if code ≠ 0 ∧ code.isValidChar then some (Char.ofNat code) else none

/-- The character that a reference between `&` and `;` stands for. -/
def referenced? : List Char → Option Char
  | '#' :: 'x' :: digits => (number? 16 digits).bind numbered?
  | '#' :: digits => (number? 10 digits).bind numbered?
  | name => named.lookup name

/-- Reads on, either outside of references or inside one whose characters so far are given with the
last one first. -/
def unescapeOn : Option (List Char) → List Char → Option (List Char)
  | none, [] => some []
  | some _, [] => none
  | none, '&' :: rest => unescapeOn (some []) rest
  | none, char :: rest => (unescapeOn none rest).map (char :: ·)
  | some _, '&' :: _ => none
  | some name, ';' :: rest => do
      let char ← referenced? name.reverse
      let decoded ← unescapeOn none rest
      return char :: decoded
  | some name, char :: rest => unescapeOn (some (char :: name)) rest

/-- The characters that a written form stands for, if every reference in it is known. -/
def unescape? (chars : List Char) : Option (List Char) :=
  unescapeOn none chars

@[simp]
theorem unescape?_nil : unescape? [] = some [] := rfl

theorem referenced?_ampersand : referenced? ['a', 'm', 'p'] = some '&' := by decide
theorem referenced?_less : referenced? ['l', 't'] = some '<' := by decide
theorem referenced?_greater : referenced? ['g', 't'] = some '>' := by decide

@[simp]
theorem unescape?_cons_escaped (char : Char) (rest : List Char) :
    unescape? (escapedChar char ++ rest) = (unescape? rest).map (char :: ·) := by
  unfold escapedChar unescape?
  split
  · next same =>
      subst same
      cases decoded : unescapeOn none rest <;> simp [unescapeOn, referenced?_ampersand, decoded]
  · next notAmpersand =>
      split
      · next same =>
          subst same
          cases decoded : unescapeOn none rest <;> simp [unescapeOn, referenced?_less, decoded]
      · split
        · next same =>
            subst same
            cases decoded : unescapeOn none rest <;>
              simp [unescapeOn, referenced?_greater, decoded]
        · simp [unescapeOn]

theorem unescape?_escape (chars : List Char) : unescape? (escape chars) = some chars := by
  induction chars with
  | nil => rfl
  | cons char rest ih =>
      simp only [escape, List.flatMap_cons] at ih ⊢
      simp [ih]

end AppBundle.Xml
