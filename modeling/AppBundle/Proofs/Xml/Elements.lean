import AppBundle.Proofs.Trimming
import AppBundle.Xml.Stream
import AppBundle.Xml.Writer

namespace AppBundle.Xml

/-! Written elements as they are read. Escaped text opens and closes no tag, so an element of plain name
gives a start tag, its text in one piece and an end tag, whatever its text says. Space is not escaped,
so that a text can be trimmed before it is written or after.
-/

variable {name : String} {chars content rest : List Char}

theorem escape_nil_iff : escape chars = [] ↔ chars = [] := by
  cases chars with
  | nil => exact iff_of_true rfl rfl
  | cons char rest =>
      have some : escapedChar char ≠ [] := by unfold escapedChar; split_ifs <;> simp
      simp [escape, some]

theorem less_not_mem_escape (chars : List Char) : '<' ∉ escape chars := by
  intro member
  obtain ⟨char, -, there⟩ := List.mem_flatMap.mp member
  unfold escapedChar at there
  split_ifs at there with ampersand less greater
  · simp at there
  · simp at there
  · simp at there
  · exact less (List.mem_singleton.mp there).symm

theorem escapedChar_space {char : Char} (space : isSpace char = true) : escapedChar char = [char] := by
  unfold escapedChar
  split_ifs with ampersand less greater
  · subst ampersand; cases space
  · subst less; cases space
  · subst greater; cases space
  · rfl

/-- The written form of any other character begins and ends with none. -/
theorem escapedChar_ends {char : Char} (solid : isSpace char = false) :
    (∃ first others, escapedChar char = first :: others ∧ isSpace first = false) ∧
      ∃ front last, escapedChar char = front ++ [last] ∧ isSpace last = false := by
  unfold escapedChar
  split_ifs
  · exact ⟨⟨_, _, rfl, by decide⟩, ⟨['&', 'a', 'm', 'p'], ';', rfl, by decide⟩⟩
  · exact ⟨⟨_, _, rfl, by decide⟩, ⟨['&', 'l', 't'], ';', rfl, by decide⟩⟩
  · exact ⟨⟨_, _, rfl, by decide⟩, ⟨['&', 'g', 't'], ';', rfl, by decide⟩⟩
  · exact ⟨⟨char, [], rfl, solid⟩, ⟨[], char, rfl, solid⟩⟩

theorem dropWhile_escape (chars : List Char) :
    (escape chars).dropWhile isSpace = escape (chars.dropWhile isSpace) := by
  induction chars with
  | nil => rfl
  | cons char rest ih =>
      rw [escape, List.flatMap_cons]
      cases solid : isSpace char with
      | true =>
          rw [escapedChar_space solid, List.singleton_append, List.dropWhile_cons_of_pos solid,
            List.dropWhile_cons_of_pos solid]
          exact ih
      | false =>
          obtain ⟨⟨first, others, begins, plain⟩, _⟩ := escapedChar_ends solid
          rw [List.dropWhile_cons_of_neg (by simp [solid]), escape, List.flatMap_cons, begins,
            List.cons_append, List.dropWhile_cons_of_neg (by simp [plain])]

theorem trimEndWhile_escape (chars : List Char) :
    Text.trimEndWhile isSpace (escape chars) = escape (Text.trimEndWhile isSpace chars) := by
  rw [Text.trimEndWhile_eq_rdropWhile, Text.trimEndWhile_eq_rdropWhile]
  induction chars using List.reverseRecOn with
  | nil => rfl
  | append_singleton front char ih =>
      have written : escape (front ++ [char]) = escape front ++ escapedChar char := by simp [escape]
      rw [written]
      cases solid : isSpace char with
      | true =>
          rw [escapedChar_space solid, List.rdropWhile_concat_pos _ _ _ solid,
            List.rdropWhile_concat_pos _ _ _ solid]
          exact ih
      | false =>
          obtain ⟨_, middle, last, ends, plain⟩ := escapedChar_ends solid
          rw [List.rdropWhile_concat_neg _ _ _ (by simp [solid]), written, ends, ← List.append_assoc,
            List.rdropWhile_concat_neg _ _ _ (by simp [plain])]

/-- A name of letters, which a tag can hold as it is. -/
def IsPlain (name : String) : Prop :=
  name ≠ "" ∧ ∀ char ∈ name.toList, char.isAlpha = true

instance : Decidable (IsPlain name) :=
  @instDecidableAnd _ _ inferInstance (List.decidableBAll _ name.toList)

/-- A start tag without attributes. -/
def Tag.plain (name : String) : Tag :=
  ⟨name, []⟩

theorem splitTag_unquoted
    (unquoted : ∀ char ∈ content, char ≠ '>' ∧ char ≠ '"' ∧ char ≠ '\x27') :
    splitTag none (content ++ '>' :: rest) = some (content, rest) := by
  induction content with
  | nil => rfl
  | cons char others ih =>
      obtain ⟨here, later⟩ := List.forall_mem_cons.mp unquoted
      obtain ⟨inside, double, single⟩ := here
      rw [List.cons_append, splitTag, if_neg inside, if_neg (by simp [double, single]), ih later]
      rfl

theorem IsPlain.ne {char mark : Char} (plain : IsPlain name) (member : char ∈ name.toList)
    (noLetter : mark.isAlpha = false) : char ≠ mark := by
  rintro rfl
  rw [plain.2 char member] at noLetter
  cases noLetter

theorem IsPlain.unquoted (plain : IsPlain name) :
    ∀ char ∈ name.toList, char ≠ '>' ∧ char ≠ '"' ∧ char ≠ '\x27' :=
  fun _ member =>
    ⟨plain.ne member (by decide), plain.ne member (by decide), plain.ne member (by decide)⟩

theorem IsPlain.solid (plain : IsPlain name) : ∀ char ∈ name.toList, isSpace char = false := by
  intro char member
  cases space : isSpace char with
  | false => rfl
  | true =>
      simp only [isSpace, Bool.or_eq_true, beq_iff_eq] at space
      rcases space with ((same | same) | same) | same
      all_goals exact absurd same (plain.ne member (by decide))

theorem IsPlain.ofChars (plain : IsPlain name) : Tag.ofChars name.toList = .plain name := by
  have inName : ∀ char ∈ name.toList, (!isSpace char) = true := by
    intro char member
    rw [plain.solid char member]
    rfl
  rw [Tag.ofChars, List.takeWhile_eq_self_iff.mpr inName, List.dropWhile_eq_nil_iff.mpr inName,
    String.ofList_toList]
  rfl

theorem IsPlain.startTokens (plain : IsPlain name) :
    startTokens name.toList = [.opening (.plain name)] := by
  have noSlash : name.toList.getLast? ≠ some '/' := by
    intro last
    exact plain.ne (List.mem_of_getLast? last) (by decide) rfl
  rw [Xml.startTokens, if_neg noSlash, plain.ofChars]

theorem IsPlain.startTokens_empty (plain : IsPlain name) :
    Xml.startTokens (name.toList ++ ['/']) = [.opening (.plain name), .closing name] := by
  rw [Xml.startTokens, if_pos (by simp), List.dropLast_concat, plain.ofChars]
  rfl

theorem IsPlain.closingName (plain : IsPlain name) : closingName name.toList = name := by
  have kept : Text.trimEndWhile isSpace name.toList = name.toList := by
    rw [Text.trimEndWhile_eq_rdropWhile, List.rdropWhile_eq_self_iff]
    intro some
    simp [plain.solid _ (List.getLast_mem some)]
  rw [Xml.closingName, kept, ite_self, String.ofList_toList]

/-- Markup that begins with a name is a start tag. -/
theorem readMarkup_name (plain : IsPlain name) :
    readMarkup (name.toList ++ chars) = (splitTag none (name.toList ++ chars)).reading startTokens := by
  cases letters : name.toList with
  | nil => exact absurd (String.toList_eq_nil_iff.mp letters) plain.1
  | cons first others =>
      have member : first ∈ name.toList := by rw [letters]; exact List.mem_cons_self
      rw [List.cons_append]
      unfold readMarkup
      split
      case h_5 => rfl
      all_goals
        next same => exact absurd (List.cons.inj same).1 (plain.ne member (by decide))

theorem Split.reading_some {α : Type} (part rest : List Char) (make : List Char → α) :
    Split.reading (some (part, rest)) make = some (make part, rest) :=
  rfl

theorem tokens_markup {read : List Token} {after : List Char}
    (found : readMarkup chars = some (read, after)) : tokens ('<' :: chars) = read ++ tokens after := by
  rw [tokens, if_pos rfl]
  split
  · next none => rw [found] at none; cases none
  · next read' after' found' =>
      rw [found] at found'
      cases found'
      rfl

theorem tokens_openingTag (plain : IsPlain name) :
    tokens (openingTag name ++ rest) = .opening (.plain name) :: tokens rest := by
  have markup : readMarkup (name.toList ++ '>' :: rest) = some ([.opening (.plain name)], rest) := by
    rw [readMarkup_name plain, splitTag_unquoted plain.unquoted, Split.reading_some, plain.startTokens]
  rw [openingTag, List.cons_append, List.append_assoc, List.singleton_append, tokens_markup markup,
    List.singleton_append]

theorem tokens_closingTag (plain : IsPlain name) :
    tokens (closingTag name ++ rest) = .closing name :: tokens rest := by
  have markup : readMarkup ('/' :: (name.toList ++ '>' :: rest)) = some ([.closing name], rest) := by
    rw [readMarkup, splitTag_unquoted plain.unquoted, Split.reading_some, plain.closingName]
  rw [closingTag, List.cons_append, List.cons_append, List.append_assoc, List.singleton_append,
    tokens_markup markup, List.singleton_append]

theorem tokens_emptyTag (plain : IsPlain name) :
    tokens (emptyTag name ++ rest) = .opening (.plain name) :: .closing name :: tokens rest := by
  have unquoted : ∀ char ∈ name.toList ++ ['/'], char ≠ '>' ∧ char ≠ '"' ∧ char ≠ '\x27' := by
    intro char member
    rcases List.mem_append.mp member with letter | slash
    · exact plain.unquoted char letter
    · rw [List.mem_singleton.mp slash]
      decide
  have split : splitTag none (name.toList ++ (['/', '>'] ++ rest)) =
      some (name.toList ++ ['/'], rest) := by
    rw [← splitTag_unquoted unquoted, List.append_assoc]
    rfl
  have markup : readMarkup (name.toList ++ (['/', '>'] ++ rest)) =
      some ([.opening (.plain name), .closing name], rest) := by
    rw [readMarkup_name plain, split, Split.reading_some, plain.startTokens_empty]
  rw [emptyTag, List.cons_append, List.append_assoc, tokens_markup markup]
  rfl

/-- Text is read up to the next markup. -/
theorem tokens_text (some : content ≠ []) (noTag : '<' ∉ content)
    (ends : ∀ char ∈ rest.head?, char = '<') :
    tokens (content ++ rest) = .text content :: tokens rest := by
  cases content with
  | nil => exact absurd rfl some
  | cons first others =>
      rw [List.mem_cons, not_or] at noTag
      obtain ⟨here, later⟩ := noTag
      have inText : ∀ char ∈ others, decide (char ≠ '<') = true := by
        intro char member
        exact decide_eq_true fun same => later (same ▸ member)
      have outside : rest.takeWhile (· ≠ '<') = [] ∧ rest.dropWhile (· ≠ '<') = rest := by
        cases rest with
        | nil => exact ⟨rfl, rfl⟩
        | cons char more =>
            obtain rfl := ends char rfl
            exact ⟨rfl, rfl⟩
      rw [List.cons_append, tokens, if_neg (Ne.symm here), List.takeWhile_append_of_pos inText,
        List.dropWhile_append_of_pos inText, outside.1, outside.2, List.append_nil]

theorem wrapped_ne_nil : wrapped name content ≠ [] := by
  unfold wrapped
  split_ifs
  · exact List.cons_ne_nil _ _
  · exact List.append_ne_nil_of_right_ne_nil _ (List.cons_ne_nil _ _)

/-- What stands for text, if there is any. -/
def textTokens (content : List Char) : List Token :=
  if content = [] then [] else [.text content]

theorem tokens_wrapped (plain : IsPlain name) (noTag : '<' ∉ content) :
    tokens (wrapped name content ++ rest) =
      .opening (.plain name) :: (textTokens content ++ .closing name :: tokens rest) := by
  unfold wrapped textTokens
  split_ifs with empty
  · exact tokens_emptyTag plain
  · have ends : ∀ char ∈ (closingTag name ++ rest).head?, char = '<' := by simp [closingTag]
    rw [List.append_assoc, List.append_assoc, tokens_openingTag plain, tokens_text empty noTag ends,
      tokens_closingTag plain]
    rfl

/-- The event of text, if there is any. -/
def textEvents (content : List Char) : List Event :=
  if content = [] then [] else [.text [.written content]]

/-- The events of an element of text, from its name and the text. -/
def elementEvents (field : String × Option String) : List Event :=
  .opening (.plain field.1) :: (textEvents (escape (field.2.getD "").toList) ++ [.closing])

theorem eventsOf_textElement {field : String × Option String} (plain : IsPlain field.1)
    (opened : List String) :
    eventsOf opened [] (tokens (textElement field.1 field.2 ++ rest)) =
      elementEvents field ++ eventsOf opened [] (tokens rest) := by
  rw [textElement, tokens_wrapped plain (less_not_mem_escape _), elementEvents]
  unfold textTokens textEvents
  split_ifs with empty
  · simp [eventsOf, flush, Tag.plain]
  · simp [eventsOf, flush, Tag.plain]

theorem eventsOf_textElements {fields : List (String × Option String)}
    (plain : ∀ field ∈ fields, IsPlain field.1) (opened : List String) :
    eventsOf opened []
        (tokens (fields.flatMap (fun field => textElement field.1 field.2) ++ rest)) =
      fields.flatMap elementEvents ++ eventsOf opened [] (tokens rest) := by
  induction fields with
  | nil => rfl
  | cons field others ih =>
      obtain ⟨here, later⟩ := List.forall_mem_cons.mp plain
      rw [List.flatMap_cons, List.append_assoc, eventsOf_textElement here, ih later, List.flatMap_cons,
        List.append_assoc]

/-- A text without the space at both of its ends. -/
def trim (text : String) : String :=
  String.ofList (Text.trimWhile isSpace text.toList)

theorem isBlank_of_isSpace {char : Char} (space : isSpace char = true) : Text.isBlank char = true := by
  simp only [isSpace, Bool.or_eq_true, beq_iff_eq] at space
  rcases space with ((rfl | rfl) | rfl) | rfl <;> rfl

theorem trim_of_trimmed {text : String} (trimmed : Text.Trimmed text) : trim text = text := by
  have solid {char : Char} (shown : Text.isBlank char = false) : isSpace char = false := by
    cases space : isSpace char with
    | false => rfl
    | true => rw [isBlank_of_isSpace space] at shown; cases shown
  rw [trim, Text.trimWhile_eq_self (fun char first => solid (trimmed.head char first))
    (fun char last => solid (trimmed.last char last)), String.ofList_toList]

namespace Stream

variable {scope : Scope} {events : List Event}

theorem nextOf_blank {pieces : List Piece} (blank : areBlank (visible true pieces) = true) :
    nextOf scope true (.text pieces :: events) = nextOf scope true events := by
  rw [nextOf, if_pos blank]

theorem visible_escape (chars : List Char) :
    visible true [.written (escape chars)] =
      if chars.dropWhile isSpace = [] then []
      else [.written (escape (chars.dropWhile isSpace))] := by
  rw [visible, if_pos rfl, Piece.trimStartAll, dropWhile_escape]
  split
  · next empty => rw [if_pos (escape_nil_iff.mp empty)]; rfl
  · next some => rw [if_neg fun empty => some (escape_nil_iff.mpr empty)]

theorem areBlank_escape {first : Char} (solid : isSpace first = false) :
    areBlank [.written (escape (first :: chars))] = false := by
  obtain ⟨⟨char, others, begins, plain⟩, _⟩ := escapedChar_ends solid
  rw [areBlank, Piece.isBlank, escape, List.flatMap_cons, begins, List.cons_append, List.all_cons, plain,
    Bool.false_and]

theorem charactersOf?_escape (chars : List Char) :
    Piece.charactersOf? [.written (escape chars)] =
      some (String.ofList (Text.trimEndWhile isSpace chars)) := by
  have read : Piece.characters? (.written (escape (Text.trimEndWhile isSpace chars))) =
      some (Text.trimEndWhile isSpace chars) := unescape?_escape _
  rw [Piece.charactersOf?, Piece.trimEndAll, Piece.trimEnd, trimEndWhile_escape]
  simp [read]

/-- The text of a written element is read without the space around it. -/
theorem elementText_textEvents (scope : Scope) (text : String) (events : List Event) :
    (Stream.mk scope true (textEvents (escape text.toList) ++ .closing :: events)).elementText =
      some (trim text, ⟨scope.leave, true, events⟩) := by
  have ended : nextOf scope true (.closing :: events) =
      some (.closing, ⟨scope.leave, true, events⟩) := rfl
  rw [trim, Text.trimWhile]
  unfold textEvents
  split_ifs with empty
  · rw [escape_nil_iff.mp empty, List.nil_append, elementText, next, ended]
    rfl
  · cases solid : text.toList.dropWhile isSpace with
    | nil =>
        have blank : areBlank (visible true [.written (escape text.toList)]) = true := by
          rw [visible_escape, if_pos solid]
          rfl
        rw [List.singleton_append, elementText, next, nextOf_blank blank, ended]
        rfl
    | cons first others =>
        have begins : isSpace first = false := by
          simpa [solid] using List.head?_dropWhile_not isSpace text.toList
        have shown : visible true [.written (escape text.toList)] =
            [.written (escape (first :: others))] := by
          rw [visible_escape, if_neg (by simp [solid]), solid]
        have occupied : ¬areBlank [.written (escape (first :: others))] = true := by
          rw [areBlank_escape begins]
          exact Bool.false_ne_true
        rw [List.singleton_append, elementText, next, nextOf, shown, if_neg occupied,
          charactersOf?_escape]
        rfl

theorem aheadScope?_textEvents (scope : Scope) (content : List Char) (events : List Event) :
    (Stream.mk scope true (textEvents content ++ .closing :: events)).aheadScope? = some scope := by
  unfold textEvents
  split_ifs
  · rfl
  · rw [List.singleton_append, aheadScope?, aheadOf]
    split_ifs <;> rfl

end Stream

end AppBundle.Xml
