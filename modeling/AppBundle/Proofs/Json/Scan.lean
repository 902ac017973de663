import AppBundle.Json.Token
import AppBundle.Json.Value

namespace AppBundle.Json

/-! Scanning what was written. The text of a value, whatever its layout, scans to the same tokens,
and scanning goes on behind it. Only a number could run on into what follows, which therefore must
not begin like the rest of one.
-/

variable {char : Char} {token : Token} {rest left : List (Option Char)} {backwards : List Char}

theorem tokens_nil : tokens [] = [] := by
  rw [tokens]

theorem tokens_space (space : isSpace char = true) : tokens (some char :: rest) = tokens rest := by
  rw [tokens, if_pos space]

theorem tokens_blank {blank : List Char} (spaces : ∀ char ∈ blank, isSpace char = true) :
    tokens (blank.map some ++ rest) = tokens rest := by
  induction blank with
  | nil => rfl
  | cons char blank ih =>
      obtain ⟨space, others⟩ := List.forall_mem_cons.mp spaces
      rw [List.map_cons, List.cons_append, tokens_space space, ih others]

theorem tokens_of_scan (solid : isSpace char = false)
    (scanned : scanToken char rest = some (token, left)) :
    tokens (some char :: rest) = token :: tokens left := by
  rw [tokens, if_neg (by simp [solid])]
  split
  · next failed => simp [scanned] at failed
  · next other remaining same =>
      rw [scanned] at same
      cases same
      rfl

theorem controlEscape_digits : ∀ code < 0x20, controlEscape (Char.ofNat code) =
    ['\\', 'u', '0', '0', (code / 16).digitChar, (code % 16).digitChar] := by
  decide

theorem unit?_digits : ∀ code < 0x20,
    unit? (some '0') (some '0') (some (code / 16).digitChar) (some (code % 16).digitChar) =
      some code := by
  decide

theorem scanString_controlEscape (control : char.toNat < 0x20) :
    scanString (.read backwards) ((controlEscape char).map some ++ rest) =
      scanString (.read (char :: backwards)) rest := by
  generalize same : char.toNat = code at control
  obtain rfl : char = Char.ofNat code := by rw [← same, Char.ofNat_toNat]
  have noHalf : ¬(0xDC00 ≤ code ∧ code ≤ 0xDFFF) ∧ ¬(0xD800 ≤ code ∧ code ≤ 0xDBFF) := by
    omega
  rw [controlEscape_digits code control]
  simp only [List.map_cons, List.map_nil, List.cons_append, List.nil_append]
  rw [scanString, unit?_digits code control]
  simp only [Content.pushUnit, noHalf, if_false]

/-- The written form of one character adds this character. -/
theorem scanString_escapedChar (char : Char) :
    scanString (.read backwards) ((escapedChar char).map some ++ rest) =
      scanString (.read (char :: backwards)) rest := by
  unfold escapedChar
  split
  · subst_vars; rfl
  split
  · subst_vars; rfl
  split
  · subst_vars; rfl
  split
  · subst_vars; rfl
  split
  · subst_vars; rfl
  split
  · subst_vars; rfl
  split
  · subst_vars; rfl
  split
  · next control => exact scanString_controlEscape control
  · next notQuote notBackslash _ _ _ _ _ visible =>
      simp only [List.map_cons, List.map_nil, List.cons_append, List.nil_append]
      rw [scanString]
      · rw [if_neg visible]
        rfl
      all_goals simp_all

theorem scanString_written (chars : List Char) :
    scanString (.read backwards) ((chars.flatMap escapedChar).map some ++ some '"' :: rest) =
      some (.text (String.ofList (backwards.reverse ++ chars)), rest) := by
  induction chars generalizing backwards with
  | nil =>
      rw [List.append_nil]
      rfl
  | cons char chars ih =>
      rw [List.flatMap_cons, List.map_append, List.append_assoc, scanString_escapedChar, ih,
        List.reverse_cons, List.append_assoc, List.singleton_append]

theorem tokens_writeText (text : String) :
    tokens ((writeText text).map some ++ rest) = .text text :: tokens rest := by
  have scanned : scanString (.read []) ((text.toList.flatMap escapedChar).map some ++
        some '"' :: rest) = some (.text text, rest) := by
    rw [scanString_written, List.reverse_nil, List.nil_append, String.ofList_toList]
  simp only [writeText, List.map_cons, List.map_append, List.map_nil, List.cons_append,
    List.append_assoc, List.nil_append]
  exact tokens_of_scan rfl scanned

/-- What follows cannot be read as more of a number. -/
def Delimited : List (Option Char) → Prop
  | some char :: _ => char.isDigit = false ∧ char ≠ '.' ∧ char ≠ 'e' ∧ char ≠ 'E'
  | _ => True

/-- A natural number as it is written. -/
def numeral (value : Nat) : Numeral :=
  ⟨false, (Nat.toDigits 10 value).map (·.toNat - 48), [], none⟩

theorem scanDigits_written {digits : List Char} (all : ∀ char ∈ digits, char.isDigit = true)
    (delimited : Delimited rest) :
    scanDigits (digits.map some ++ rest) = (digits.map (·.toNat - 48), rest) := by
  induction digits with
  | nil =>
      cases rest with
      | nil => rfl
      | cons head tail =>
          cases head with
          | none => rfl
          | some char => simp [scanDigits, delimited.1]
  | cons char digits ih =>
      obtain ⟨digit, others⟩ := List.forall_mem_cons.mp all
      simp [scanDigits, digit, ih others]

theorem scanFraction_absent (delimited : Delimited rest) : scanFraction rest = some ([], rest) := by
  unfold scanFraction
  split
  · exact absurd rfl delimited.2.1
  · rfl

theorem scanExponent_absent (delimited : Delimited rest) :
    scanExponent rest = some (none, rest) := by
  unfold scanExponent
  split
  · next char tail =>
      obtain ⟨_, _, lower, upper⟩ := delimited
      rw [if_neg (by simp [lower, upper])]
  · rfl

/-- A number other than zero does not begin with a zero. -/
theorem toDigits_head {value : Nat} (positive : 0 < value) : ∃ first others,
    Nat.toDigits 10 value = first :: others ∧ first.toNat - 48 ≠ 0 := by
  induction value using Nat.strongRecOn with
  | ind value ih =>
      by_cases small : value < 10
      · have nonzero : ∀ digit < 10, 0 < digit → digit.digitChar.toNat - 48 ≠ 0 := by decide
        exact ⟨_, [], Nat.toDigits_of_lt_base small, nonzero value small positive⟩
      · obtain ⟨first, others, digits, nonzero⟩ := ih (value / 10) (by omega) (by omega)
        refine ⟨first, others ++ [(value % 10).digitChar], ?_, nonzero⟩
        rw [Nat.toDigits_of_base_le (by decide) (by omega), digits, List.cons_append]

theorem isDigit_toDigits (value : Nat) : ∀ char ∈ Nat.toDigits 10 value, char.isDigit = true :=
  fun _ member => Nat.isDigit_of_mem_toDigits (by decide) (by decide) member

theorem toDigits_not_padded (value : Nat) (padding : List Nat) (digit : Nat) :
    (Nat.toDigits 10 value).map (·.toNat - 48) ≠ 0 :: digit :: padding := by
  intro padded
  rcases Nat.eq_zero_or_pos value with rfl | positive
  · cases padded
  · obtain ⟨first, others, digits, nonzero⟩ := toDigits_head positive
    rw [digits, List.map_cons] at padded
    exact nonzero (List.cons.inj padded).1

theorem scanNumber_written (value : Nat) (delimited : Delimited rest) :
    scanNumber false ((Nat.toDigits 10 value).map some ++ rest) =
      some (.number (numeral value), rest) := by
  unfold scanNumber
  rw [scanDigits_written (isDigit_toDigits value) delimited]
  simp only
  split
  · next empty => exact absurd (List.map_eq_nil_iff.mp empty) Nat.toDigits_ne_nil
  · next padded => exact absurd padded (toDigits_not_padded value _ _)
  · rw [scanFraction_absent delimited]
    simp only [scanExponent_absent delimited]
    rfl

/-- A digit begins nothing but a number. -/
theorem scanToken_digit (digit : char.isDigit = true) :
    scanToken char rest = scanNumber false (some char :: rest) := by
  unfold scanToken
  split
  all_goals first | exact absurd digit (by decide) | skip
  rw [if_pos digit]

theorem isSpace_digit (digit : char.isDigit = true) : isSpace char = false := by
  cases space : isSpace char with
  | false => rfl
  | true =>
      simp only [isSpace, Bool.or_eq_true, decide_eq_true_eq] at space
      rcases space with ((rfl | rfl) | rfl) | rfl <;> exact absurd digit (by decide)

theorem tokens_natural (value : Nat) (delimited : Delimited rest) :
    tokens ((Nat.toDigits 10 value).map some ++ rest) = .number (numeral value) :: tokens rest := by
  have scanned := scanNumber_written value delimited
  cases digits : Nat.toDigits 10 value with
  | nil => exact absurd digits Nat.toDigits_ne_nil
  | cons first others =>
      have digit := isDigit_toDigits value first (by rw [digits]; exact List.mem_cons_self ..)
      rw [digits, List.map_cons, List.cons_append] at scanned
      rw [List.map_cons, List.cons_append]
      exact tokens_of_scan (isSpace_digit digit) ((scanToken_digit digit).trans scanned)

mutual

/-- The tokens of a value. -/
def lexemes : Json → List Token
  | null => [.null]
  | boolean value => [.boolean value]
  | natural value => [.number (numeral value)]
  | text value => [.text value]
  | array [] => [.openArray, .closeArray]
  | array (item :: rest) =>
      .openArray :: (lexemes item ++ itemLexemes rest ++ [.closeArray])
  | object [] => [.openObject, .closeObject]
  | object (member :: rest) =>
      .openObject :: (memberLexemes member ++ membersLexemes rest ++ [.closeObject])

def itemLexemes : List Json → List Token
  | [] => []
  | item :: rest => .comma :: (lexemes item ++ itemLexemes rest)

def memberLexemes : String × Json → List Token
  | (key, value) => .text key :: .colon :: lexemes value

def membersLexemes : List (String × Json) → List Token
  | [] => []
  | member :: rest => .comma :: (memberLexemes member ++ membersLexemes rest)

end

/-- A layout puts nothing but white space between tokens. -/
structure Layout.Blank (layout : Layout) : Prop where
  lineBreak : ∀ depth, ∀ char ∈ layout.lineBreak depth, isSpace char = true
  afterColon : ∀ char ∈ layout.afterColon, isSpace char = true

theorem Layout.blank_of (pretty : Bool) : (Layout.of pretty).Blank := by
  cases pretty with
  | false => exact ⟨by simp [Layout.of, Layout.compact], by simp [Layout.of, Layout.compact]⟩
  | true =>
      constructor
      · intro depth char member
        simp only [Layout.of, Layout.pretty, if_true, List.mem_cons, List.mem_replicate] at member
        rcases member with rfl | ⟨_, rfl⟩ <;> rfl
      · intro char member
        obtain rfl := List.mem_singleton.mp member
        rfl

theorem delimited_of_isSpace (space : isSpace char = true) : Delimited (some char :: rest) := by
  simp only [isSpace, Bool.or_eq_true, decide_eq_true_eq] at space
  rcases space with ((rfl | rfl) | rfl) | rfl <;> simp [Delimited]

theorem delimited_blank {blank : List Char} (spaces : ∀ char ∈ blank, isSpace char = true)
    (delimited : Delimited rest) : Delimited (blank.map some ++ rest) := by
  cases blank with
  | nil => exact delimited
  | cons char blank => exact delimited_of_isSpace (spaces char (List.mem_cons_self ..))

variable {layout : Layout}

theorem delimited_writeItems (layout : Layout) (depth : Nat) (items : List Json)
    (delimited : Delimited rest) :
    Delimited ((writeItems layout depth items).map some ++ rest) := by
  cases items with
  | nil => exact delimited
  | cons item items => simp [writeItems, Delimited]

theorem delimited_writeMembers (layout : Layout) (depth : Nat) (members : List (String × Json))
    (delimited : Delimited rest) :
    Delimited ((writeMembers layout depth members).map some ++ rest) := by
  cases members with
  | nil => exact delimited
  | cons member members => simp [writeMembers, Delimited]

mutual

theorem tokens_write (blank : layout.Blank) (depth : Nat) (value : Json)
    {rest : List (Option Char)} (delimited : Delimited rest) :
    tokens ((write layout depth value).map some ++ rest) = lexemes value ++ tokens rest := by
  match value with
  | null => exact tokens_of_scan rfl rfl
  | boolean true => exact tokens_of_scan rfl rfl
  | boolean false => exact tokens_of_scan rfl rfl
  | natural value => exact tokens_natural value delimited
  | text value => exact tokens_writeText value
  | array [] => exact (tokens_of_scan rfl rfl).trans (congrArg _ (tokens_of_scan rfl rfl))
  | object [] => exact (tokens_of_scan rfl rfl).trans (congrArg _ (tokens_of_scan rfl rfl))
  | array (item :: items) =>
      have closed : Delimited (some ']' :: rest) := by simp [Delimited]
      have broken := delimited_blank (blank.lineBreak depth) closed
      have first := tokens_write blank (depth + 1) item
        (delimited_writeItems layout (depth + 1) items broken)
      have others := tokens_writeItems blank (depth + 1) items broken
      have close : tokens (some ']' :: rest) = .closeArray :: tokens rest := tokens_of_scan rfl rfl
      simp only [write, lexemes, List.map_cons, List.map_append, List.map_nil, List.cons_append,
        List.append_assoc, List.nil_append]
      rw [tokens_of_scan rfl rfl, tokens_blank (blank.lineBreak _), first, others,
        tokens_blank (blank.lineBreak _), close]
  | object (member :: members) =>
      have closed : Delimited (some '\x7d' :: rest) := by simp [Delimited]
      have broken := delimited_blank (blank.lineBreak depth) closed
      have first := tokens_writeMember blank (depth + 1) member
        (delimited_writeMembers layout (depth + 1) members broken)
      have others := tokens_writeMembers blank (depth + 1) members broken
      have close : tokens (some '\x7d' :: rest) = .closeObject :: tokens rest :=
        tokens_of_scan rfl rfl
      simp only [write, lexemes, List.map_cons, List.map_append, List.map_nil, List.cons_append,
        List.append_assoc, List.nil_append]
      rw [tokens_of_scan rfl rfl, tokens_blank (blank.lineBreak _), first, others,
        tokens_blank (blank.lineBreak _), close]

theorem tokens_writeItems (blank : layout.Blank) (depth : Nat) (items : List Json)
    {rest : List (Option Char)} (delimited : Delimited rest) :
    tokens ((writeItems layout depth items).map some ++ rest) =
      itemLexemes items ++ tokens rest := by
  match items with
  | [] => rfl
  | item :: items =>
      have here := tokens_write blank depth item
        (delimited_writeItems layout depth items delimited)
      have later := tokens_writeItems blank depth items delimited
      simp only [writeItems, itemLexemes, List.map_cons, List.map_append, List.cons_append,
        List.append_assoc]
      rw [tokens_of_scan rfl rfl, tokens_blank (blank.lineBreak _), here, later]

theorem tokens_writeMember (blank : layout.Blank) (depth : Nat) (member : String × Json)
    {rest : List (Option Char)} (delimited : Delimited rest) :
    tokens ((writeMember layout depth member).map some ++ rest) =
      memberLexemes member ++ tokens rest := by
  match member with
  | (key, value) =>
      have written := tokens_write blank depth value delimited
      simp only [writeMember, memberLexemes, List.map_cons, List.map_append, List.cons_append,
        List.append_assoc]
      rw [tokens_writeText, tokens_of_scan rfl rfl, tokens_blank blank.afterColon, written]

theorem tokens_writeMembers (blank : layout.Blank) (depth : Nat) (members : List (String × Json))
    {rest : List (Option Char)} (delimited : Delimited rest) :
    tokens ((writeMembers layout depth members).map some ++ rest) =
      membersLexemes members ++ tokens rest := by
  match members with
  | [] => rfl
  | member :: members =>
      have here := tokens_writeMember blank depth member
        (delimited_writeMembers layout depth members delimited)
      have later := tokens_writeMembers blank depth members delimited
      simp only [writeMembers, membersLexemes, List.map_cons, List.map_append, List.cons_append,
        List.append_assoc]
      rw [tokens_of_scan rfl rfl, tokens_blank (blank.lineBreak _), here, later]

end

/-- A rendered value scans to its tokens, pretty or not. -/
theorem tokens_render (value : Json) (pretty : Bool) :
    tokens (Text.scalars (value.render pretty)) = lexemes value := by
  have written := tokens_write (Layout.blank_of pretty) 0 value (show Delimited [] from trivial)
  rw [List.append_nil, tokens_nil, List.append_nil] at written
  rw [Text.scalars, render, String.toList_ofList, written]

end AppBundle.Json
