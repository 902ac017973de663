import AppBundle.Xml.Escape

namespace AppBundle.Xml

/-!
Tokens of markup. Tags, comments and declarations are told apart by the characters after `<`;
everything between them is text, kept as it is written. A tag ends at the first `>` outside of
quotes, whatever stands in it.
-/

/-- A start tag: its name, and what follows the name. -/
structure Tag where
  name : String
  attributes : List Char
deriving DecidableEq

inductive Token where
  | text (raw : List Char)
  | literal (content : List Char)
  | opening (tag : Tag)
  | closing (name : String)
  /-- A document type declaration. -/
  | declaration
  /-- A comment or a processing instruction. -/
  | aside
  /-- Markup that does not end, or has no such form. -/
  | malformed
deriving DecidableEq

/-- A token that was read, and the characters after it. -/
abbrev Split := Option (List Char × List Char)

/-- Puts a character in front of the part that a split takes away. -/
def Split.before (char : Char) (split : Split) : Split :=
  split.map fun (part, rest) => (char :: part, rest)

/-- What the part that is taken away stands for, with the characters after it. -/
def Split.reading {α : Type} (split : Split) (make : List Char → α) : Option (α × List Char) :=
  split.map fun (part, rest) => (make part, rest)

/-- Splits where a mark stands for the first time; the mark itself is dropped. -/
def splitAtMark (mark : List Char) : List Char → Split
  | [] => none
  | char :: rest =>
      match mark.isPrefixOf? (char :: rest) with
      | some after => some ([], after)
      | none => (splitAtMark mark rest).before char

/-- Splits at the end of a tag. Inside quotes, the quote that ends them is given. -/
def splitTag : Option Char → List Char → Split
  | _, [] => none
  | none, char :: rest =>
      if char = '>' then some ([], rest)
      else if char = '"' ∨ char = '\x27' then (splitTag (some char) rest).before char
      else (splitTag none rest).before char
  | some quote, char :: rest =>
      if char = quote then (splitTag none rest).before char
      else (splitTag (some quote) rest).before char

/-- Splits at the end of a declaration, which may hold others at some depth. -/
def splitDeclaration : Nat → List Char → Split
  | _, [] => none
  | depth, char :: rest =>
      if char = '<' then (splitDeclaration (depth + 1) rest).before char
      else if char = '>' then
        match depth with
        | 0 => some ([], rest)
        | outer + 1 => (splitDeclaration outer rest).before char
      else (splitDeclaration depth rest).before char

/-- A split that leaves less than there was. -/
def Split.Shortens (split : Split) (chars : List Char) : Prop :=
  ∀ part rest, split = some (part, rest) → rest.length < chars.length

theorem Split.Shortens.before {split : Split} {chars : List Char} (shortens : split.Shortens chars)
    (char : Char) : (split.before char).Shortens (char :: chars) := by
  intro part rest found
  cases split with
  | none => simp [Split.before] at found
  | some inner =>
      obtain ⟨first, last⟩ := inner
      simp only [Split.before, Option.map_some, Option.some.injEq, Prod.mk.injEq] at found
      obtain ⟨-, rfl⟩ := found
      exact Nat.lt_succ_of_lt (shortens first _ rfl)

theorem splitTag_shortens (quote : Option Char) (chars : List Char) :
    (splitTag quote chars).Shortens chars := by
  induction chars generalizing quote with
  | nil =>
      intro part rest found
      cases quote <;> simp [splitTag] at found
  | cons char rest ih =>
      cases quote with
      | none =>
          simp only [splitTag]
          split
          · intro part last found
            simp only [Option.some.injEq, Prod.mk.injEq] at found
            obtain ⟨-, rfl⟩ := found
            exact Nat.lt_succ_self _
          · split <;> exact (ih _).before char
      | some mark =>
          simp only [splitTag]
          split <;> exact (ih _).before char

theorem splitDeclaration_shortens (depth : Nat) (chars : List Char) :
    (splitDeclaration depth chars).Shortens chars := by
  induction chars generalizing depth with
  | nil =>
      intro part rest found
      simp [splitDeclaration] at found
  | cons char rest ih =>
      simp only [splitDeclaration]
      split
      · exact (ih _).before char
      · split
        · cases depth with
          | zero =>
              intro part last found
              simp only [Option.some.injEq, Prod.mk.injEq] at found
              obtain ⟨-, rfl⟩ := found
              exact Nat.lt_succ_self _
          | succ outer => exact (ih _).before char
        · exact (ih _).before char

theorem length_of_isPrefixOf? {mark chars rest : List Char}
    (found : mark.isPrefixOf? chars = some rest) : mark.length + rest.length = chars.length := by
  induction mark generalizing chars with
  | nil =>
      cases (found : some chars = some rest)
      simp
  | cons first others ih =>
      cases chars with
      | nil => cases (found : none = some rest)
      | cons char more =>
          change (if first == char then others.isPrefixOf? more else none) = some rest at found
          split at found
          · have size := ih found
            simp only [List.length_cons]
            omega
          · simp at found

theorem splitAtMark_shortens {mark : List Char} (nonempty : mark ≠ []) (chars : List Char) :
    (splitAtMark mark chars).Shortens chars := by
  induction chars with
  | nil =>
      intro part rest found
      simp [splitAtMark] at found
  | cons char rest ih =>
      simp only [splitAtMark]
      split
      · next after isHere =>
          intro part last found
          simp only [Option.some.injEq, Prod.mk.injEq] at found
          obtain ⟨-, rfl⟩ := found
          have size := length_of_isPrefixOf? isHere
          have positive := List.length_pos_iff.mpr nonempty
          omega
      · exact ih.before char

/-- A start tag from what stands between its brackets, without the slash of an empty element. -/
def Tag.ofChars (chars : List Char) : Tag :=
  ⟨String.ofList (chars.takeWhile fun char => !isSpace char),
    chars.dropWhile fun char => !isSpace char⟩

/-- The tokens of a start tag. The tag of an empty element ends it as well. -/
def startTokens (chars : List Char) : List Token :=
  if chars.getLast? = some '/' then
    let tag := Tag.ofChars chars.dropLast
    [.opening tag, .closing tag.name]
  else [.opening (.ofChars chars)]

/-- The name in an end tag, without the space after it. -/
def closingName (chars : List Char) : String :=
  let name := Text.trimEndWhile isSpace chars
  String.ofList (if name = [] then chars else name)

def literalMark : List Char := ['[', 'C', 'D', 'A', 'T', 'A', '[']

def declarationMark : List Char := ['d', 'o', 'c', 't', 'y', 'p', 'e']

/-- Reads a document type declaration behind `<!`. It must name something. -/
def readDeclaration (chars : List Char) : Split :=
  if declarationMark = (chars.take declarationMark.length).map Char.toLower then
    (splitDeclaration 0 (chars.drop declarationMark.length)).bind fun (content, rest) =>
      if content.all isSpace then none else some (content, rest)
  else none

def readBang (chars : List Char) : Option (List Token × List Char) :=
  match chars with
  | '-' :: '-' :: rest =>
      (splitAtMark ['-', '-', '>'] rest).reading fun _ => [.aside]
  | _ =>
      match literalMark.isPrefixOf? chars with
      | some rest => (splitAtMark [']', ']', '>'] rest).reading fun content => [.literal content]
      | none => (readDeclaration chars).reading fun _ => [.declaration]

/-- Reads the markup behind a `<`: its tokens, and the characters after it. -/
def readMarkup (chars : List Char) : Option (List Token × List Char) :=
  match chars with
  | '!' :: rest => readBang rest
  | '?' :: '>' :: _ => none
  | '?' :: rest => (splitAtMark ['?', '>'] rest).reading fun _ => [.aside]
  | '/' :: rest => (splitTag none rest).reading fun name => [.closing (closingName name)]
  | rest => (splitTag none rest).reading startTokens

theorem readDeclaration_shortens (chars : List Char) : (readDeclaration chars).Shortens chars := by
  intro part rest found
  unfold readDeclaration at found
  split at found
  · obtain ⟨⟨content, after⟩, isSplit, same⟩ := Option.bind_eq_some_iff.mp found
    have shorter := splitDeclaration_shortens 0 _ _ _ isSplit
    simp only [Option.ite_none_left_eq_some, Option.some.injEq, Prod.mk.injEq] at same
    obtain ⟨-, -, rfl⟩ := same
    simp only [List.length_drop] at shorter
    omega
  · simp at found

theorem Split.Shortens.reading {split : Split} {chars longer : List Char} {α : Type}
    (shortens : split.Shortens chars) (fits : chars.length ≤ longer.length)
    {make : List Char → α} {read : α} {rest : List Char}
    (found : split.reading make = some (read, rest)) : rest.length < longer.length := by
  obtain ⟨⟨part, after⟩, isSplit, same⟩ := Option.map_eq_some_iff.mp found
  simp only [Prod.mk.injEq] at same
  obtain ⟨-, rfl⟩ := same
  exact Nat.lt_of_lt_of_le (shortens part _ isSplit) fits

theorem readBang_shorter {chars rest : List Char} {read : List Token}
    (found : readBang chars = some (read, rest)) : rest.length < chars.length := by
  unfold readBang at found
  split at found
  · exact (splitAtMark_shortens (List.cons_ne_nil _ _) _).reading (by simp; omega) found
  · split at found
    · next isLiteral =>
        have size := length_of_isPrefixOf? isLiteral
        exact (splitAtMark_shortens (List.cons_ne_nil _ _) _).reading (by omega) found
    · exact (readDeclaration_shortens chars).reading (Nat.le_refl _) found

theorem readMarkup_shorter {chars rest : List Char} {read : List Token}
    (found : readMarkup chars = some (read, rest)) : rest.length < chars.length := by
  unfold readMarkup at found
  split at found
  · exact Nat.lt_succ_of_lt (readBang_shorter found)
  · simp at found
  · exact (splitAtMark_shortens (List.cons_ne_nil _ _) _).reading (by simp) found
  · exact (splitTag_shortens none _).reading (by simp) found
  · exact (splitTag_shortens none _).reading (Nat.le_refl _) found

/-- The tokens of a text, up to the first malformed one. -/
def tokens : List Char → List Token
  | [] => []
  | char :: rest =>
      if char = '<' then
        match _found : readMarkup rest with
        | none => [.malformed]
        | some (read, after) => read ++ tokens after
      else
        .text (char :: rest.takeWhile (· ≠ '<')) :: tokens (rest.dropWhile (· ≠ '<'))
termination_by chars => chars.length
decreasing_by
  · have shorter := readMarkup_shorter _found
    simp only [List.length_cons]
    omega
  · have shorter := (List.dropWhile_suffix (· ≠ '<') (l := rest)).length_le
    simp only [List.length_cons]
    omega

end AppBundle.Xml
