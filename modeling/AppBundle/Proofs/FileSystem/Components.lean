import AppBundle.Proofs.FileSystem.Change

namespace AppBundle

/-! Paths by their components. Joining appends components and taking the parent drops the last one,
whatever separators and inner `.` names the texts have; and of two paths with the same components
each reads the file that the other one reads.
-/

namespace Path

variable {path base next other : Path} {text left right : RawText} {pieces : List RawText}
  {char : UInt8}

/-- The components that a text adds to a path in front of it. -/
def stepsOf (text : RawText) : List Component :=
  (text.parts slash).filterMap componentOf?

/-- The components that only the start of a path can have. -/
def anchor (path : Path) : List Component :=
  if path.isAbsolute then [.root]
  else if (path.text.parts slash).head? = some ("." : RawText) then [.current]
  else []

theorem components_eq : path.components = path.anchor ++ stepsOf path.text := by
  dsimp only [components, anchor]
  split
  · rfl
  · split
    · rfl
    · rfl

theorem mem_steps {component : Component} (member : component ∈ pieces.filterMap componentOf?) :
    component = .parent ∨ ∃ name, component = .name name := by
  obtain ⟨piece, _, same⟩ := List.mem_filterMap.mp member
  unfold componentOf? at same
  split at same
  · cases same
  · split at same
    · exact .inl (Option.some.inj same).symm
    · exact .inr ⟨piece, (Option.some.inj same).symm⟩

theorem anchor_cases (path : Path) : path.anchor = [.root] ∧ path.isAbsolute = true ∨
    path.isAbsolute = false ∧ (path.anchor = [.current] ∨ path.anchor = []) := by
  unfold anchor
  split
  · next absolute => exact .inl ⟨rfl, absolute⟩
  · next relative =>
      refine .inr ⟨by simpa using relative, ?_⟩
      split
      · exact .inl rfl
      · exact .inr rfl

theorem SameComponents.trans {last : Path} (first : path.SameComponents other)
    (second : other.SameComponents last) : path.SameComponents last :=
  Eq.trans first second

theorem sameComponents_iff :
    path.SameComponents other ↔
      path.anchor = other.anchor ∧ stepsOf path.text = stepsOf other.text := by
  -- what the start has can be told from the steps behind it
  let starts : Component → Bool
    | .root => true
    | .current => true
    | _ => false
  have front (path : Path) : path.components.takeWhile starts = path.anchor ∧
      path.components.dropWhile starts = stepsOf path.text := by
    have anchored : ∀ component ∈ path.anchor, starts component = true := by
      rcases anchor_cases path with ⟨same, _⟩ | ⟨_, same | same⟩
      all_goals
        rw [same]
        decide
    have stepped : ∀ component ∈ stepsOf path.text, starts component = false := by
      intro component member
      rcases mem_steps member with rfl | ⟨_, rfl⟩
      · rfl
      · rfl
    rw [components_eq, List.takeWhile_append_of_pos anchored, List.dropWhile_append_of_pos anchored]
    cases steps : stepsOf path.text with
    | nil => exact ⟨List.append_nil _, rfl⟩
    | cons first rest =>
        have apart := stepped first (steps ▸ List.mem_cons_self ..)
        simp [apart]
  constructor
  · intro same
    have same : path.components = other.components := same
    exact ⟨by rw [← (front path).1, same, (front other).1],
      by rw [← (front path).2, same, (front other).2]⟩
  · intro parts
    rw [SameComponents, components_eq, components_eq, parts.1, parts.2]

theorem isAbsolute_congr (same : path.SameComponents other) :
    path.isAbsolute = other.isAbsolute := by
  have anchors := (sameComponents_iff.mp same).1
  rcases anchor_cases path with ⟨here, absolute⟩ | ⟨relative, here⟩
  · rcases anchor_cases other with ⟨_, absolute'⟩ | ⟨_, there | there⟩
    · rw [absolute, absolute']
    · simp [here, there] at anchors
    · simp [here, there] at anchors
  · rcases anchor_cases other with ⟨there, _⟩ | ⟨relative', _⟩
    · rcases here with here | here
      · simp [here, there] at anchors
      · simp [here, there] at anchors
    · rw [relative, relative']

theorem stepsOf_empty : stepsOf "" = [] :=
  rfl

theorem stepsOf_separated : stepsOf (left ++ "/" ++ right) = stepsOf left ++ stepsOf right := by
  rw [stepsOf, parts_separated, List.filterMap_append]
  rfl

theorem parts_ne_nil (text : RawText) : text.parts slash ≠ [] := by
  simp [RawText.parts]

theorem anchor_separated : (Path.mk (left ++ "/" ++ right)).anchor = (Path.mk (left ++ "/")).anchor := by
  have begun : (Path.mk (left ++ "/" ++ right)).isAbsolute = (Path.mk (left ++ "/")).isAbsolute :=
    isAbsolute_append (by simp) right
  rw [anchor, anchor, begun, parts_separated, parts_separator,
    List.head?_append_of_ne_nil _ (parts_ne_nil left), List.head?_append_of_ne_nil _ (parts_ne_nil left)]

theorem components_separated :
    (Path.mk (left ++ "/" ++ right)).components =
      (Path.mk (left ++ "/")).components ++ stepsOf right := by
  have ended : stepsOf (left ++ "/") = stepsOf left := by
    have split : stepsOf (left ++ "/" ++ "") = _ := stepsOf_separated
    rwa [RawText.append_empty, stepsOf_empty, List.append_nil] at split
  rw [components_eq, components_eq, anchor_separated, stepsOf_separated, ended, List.append_assoc]

theorem components_separator (nonempty : left ≠ "") :
    (Path.mk (left ++ "/")).components = (Path.mk left).components := by
  have begun : (Path.mk (left ++ "/")).isAbsolute = (Path.mk left).isAbsolute :=
    isAbsolute_append nonempty "/"
  have steps : stepsOf (left ++ "/") = stepsOf left := by
    rw [stepsOf, parts_separator, List.filterMap_append]
    exact List.append_nil _
  rw [components_eq, components_eq, anchor, anchor, begun, steps, parts_separator,
    List.head?_append_of_ne_nil _ (parts_ne_nil left)]

/-- A path ends with a separator, or there is one written behind it. -/
theorem join_separated (nonempty : base.text ≠ "") (relative : next.isAbsolute = false) :
    ∃ front, (Path.mk (front ++ "/")).components = base.components ∧
      base.join next = ⟨front ++ "/" ++ next.text⟩ := by
  rw [join_relative relative, separator]
  cases last : base.text.bytes.getLast? with
  | none =>
      have empty : base.text = "" := by simpa using last
      exact absurd empty nonempty
  | some char =>
      by_cases separated : char = slash
      · obtain ⟨chars, whole⟩ := List.getLast?_eq_some_iff.mp last
        have text : base.text = ⟨chars⟩ ++ "/" := by
          apply RawText.ext_bytes
          simp [whole, separated]
        refine ⟨⟨chars⟩, congrArg (fun text => (Path.mk text).components) text.symm, ?_⟩
        simp [separated, text]
      · refine ⟨base.text, components_separator nonempty, ?_⟩
        simp [separated]

theorem components_join (nonempty : base.text ≠ "") (relative : next.isAbsolute = false) :
    (base.join next).components = base.components ++ stepsOf next.text := by
  obtain ⟨front, same, joined⟩ := join_separated nonempty relative
  rw [joined, components_separated, same]

theorem stepsOf_join (relative : next.isAbsolute = false) :
    stepsOf (base.join next).text = stepsOf base.text ++ stepsOf next.text := by
  by_cases empty : base.text = ""
  · rw [join_relative relative, separator]
    simp [empty, stepsOf_empty]
  · obtain ⟨front, same, joined⟩ := join_separated empty relative
    have steps := (sameComponents_iff.mp (show SameComponents _ _ from same)).2
    have whole : stepsOf (front ++ "/" ++ "") = _ := stepsOf_separated
    rw [RawText.append_empty, stepsOf_empty, List.append_nil] at whole
    rw [joined, stepsOf_separated, ← whole, steps]

theorem relative_of_join (relative : (base.join next).isAbsolute = false) :
    base.isAbsolute = false ∧ next.isAbsolute = false := by
  cases absolute : next.isAbsolute with
  | true =>
      rw [join, if_pos absolute, absolute] at relative
      cases relative
  | false => exact ⟨(isAbsolute_join absolute base).symm.trans relative, rfl⟩

theorem join_congr (same : base.SameComponents other) (nonempty : base.text ≠ "")
    (nonempty' : other.text ≠ "") : (base.join next).SameComponents (other.join next) := by
  cases absolute : next.isAbsolute with
  | true =>
      rw [join, join, if_pos absolute, if_pos absolute]
      rfl
  | false =>
      have same : base.components = other.components := same
      rw [SameComponents, components_join nonempty absolute, components_join nonempty' absolute, same]

theorem join_congr_next (same : next.SameComponents other) :
    (base.join next).SameComponents (base.join other) := by
  have begun := isAbsolute_congr same
  cases absolute : next.isAbsolute with
  | true =>
      rw [join, join, if_pos absolute, if_pos (begun ▸ absolute)]
      exact same
  | false =>
      have relative : other.isAbsolute = false := begun ▸ absolute
      by_cases empty : base.text = ""
      · rw [join_relative absolute, join_relative relative, separator]
        simpa [empty] using same
      · have steps := (sameComponents_iff.mp same).2
        rw [SameComponents, components_join empty absolute, components_join empty relative, steps]

theorem isRelative_of_clean (clean : slash ∉ text.bytes) : (Path.mk text).isAbsolute = false := by
  have head : text.bytes.head? ≠ some slash := fun head => clean (List.mem_of_mem_head? head)
  simpa [isAbsolute] using head

/-- Names joined one by one. -/
theorem components_foldl_join (nonempty : base.text ≠ "") (clean : ∀ piece ∈ pieces, slash ∉ piece.bytes) :
    (pieces.foldl (fun path piece => path.join ⟨piece⟩) base).components =
      base.components ++ pieces.filterMap componentOf? := by
  induction pieces generalizing base with
  | nil => exact (List.append_nil _).symm
  | cons piece rest ih =>
      obtain ⟨plain, clean⟩ := List.forall_mem_cons.mp clean
      have relative := isRelative_of_clean plain
      have still : (base.join ⟨piece⟩).text ≠ "" := by
        rw [join_relative relative]
        simp [nonempty]
      rw [List.foldl_cons, ih still clean, components_join nonempty relative, stepsOf,
        parts_of_clean plain, List.append_assoc, ← List.filterMap_append]
      rfl

/-- Nothing stands at the end that carries no meaning. The text is given backwards. -/
def Fixed (bytes : List UInt8) : Prop :=
  ∀ last before rest, bytes = last :: before :: rest → ¬(last = slash ∨ last = dot ∧ before = slash)

theorem trimBackwards_of_fixed {bytes : List UInt8} (fixed : Fixed bytes) :
    trimBackwards bytes = bytes := by
  unfold trimBackwards
  split
  · exact if_neg (fixed _ _ _ rfl)
  · rfl

theorem fixed_trimBackwards (bytes : List UInt8) : Fixed (trimBackwards bytes) := by
  induction bytes using trimBackwards.induct with
  | case1 last before rest dropped ih => rwa [trimBackwards, if_pos dropped]
  | case2 last before rest kept =>
      rw [trimBackwards, if_neg kept]
      rintro _ _ _ ⟨⟩
      exact kept
  | case3 bytes short =>
      rw [trimBackwards.eq_2 _ short]
      exact fun _ _ _ whole => absurd whole (short _ _ _)

/-- A path without what carries no meaning at its end. -/
def trimmed (path : Path) : Path :=
  ⟨⟨(trimBackwards path.text.bytes.reverse).reverse⟩⟩

theorem components_trimBackwards (bytes : List UInt8) :
    (Path.mk ⟨(trimBackwards bytes).reverse⟩).components = (Path.mk ⟨bytes.reverse⟩).components := by
  induction bytes using trimBackwards.induct with
  | case1 last before rest dropped ih =>
      have front : RawText.mk (before :: rest).reverse ≠ "" := by simp
      rw [trimBackwards, if_pos dropped, ih]
      rcases dropped with rfl | ⟨rfl, rfl⟩
      · have whole : RawText.mk (slash :: before :: rest).reverse =
            ⟨(before :: rest).reverse⟩ ++ "/" := by
          apply RawText.ext_bytes
          simp
        rw [whole, components_separator front]
      · have shorter : RawText.mk (slash :: rest).reverse = ⟨rest.reverse⟩ ++ "/" := by
          apply RawText.ext_bytes
          simp
        have whole : RawText.mk (dot :: slash :: rest).reverse =
            ⟨rest.reverse⟩ ++ "/" ++ "." := by
          apply RawText.ext_bytes
          simp
        rw [whole, shorter, components_separated]
        exact (List.append_nil _).symm
  | case2 last before rest kept => rw [trimBackwards, if_neg kept]
  | case3 bytes short => rw [trimBackwards.eq_2 _ short]

/-- The text is given backwards; something but separators has to be left of it. -/
theorem components_dropSeparators {chars : List Char} (named : chars.dropWhile (· = '/') ≠ []) :
    (Path.mk (String.ofList (chars.dropWhile (· = '/')).reverse)).components =
      (Path.mk (String.ofList chars.reverse)).components := by
  induction chars with
  | nil => exact absurd rfl named
  | cons char rest ih =>
      by_cases separated : char = '/'
      · subst separated
        rw [List.dropWhile_cons_of_pos (by decide)] at named ⊢
        have whole : String.ofList ('/' :: rest).reverse = String.ofList rest.reverse ++ "/" := by
          apply String.toList_injective
          simp
        have nonempty : RawText.ofText (String.ofList rest.reverse) ≠ "" := by
          refine RawText.ofText_ne fun empty => ?_
          obtain rfl : rest = [] := by simpa using empty
          exact named rfl
        rw [ih named, whole, RawText.ofText_append, components_separator nonempty]
      · rw [List.dropWhile_cons_of_neg (by simpa using separated)]

theorem components_trimmed : path.trimmed.components = path.components := by
  have whole := components_trimBackwards path.text.bytes.reverse
  rwa [List.reverse_reverse] at whole

theorem nonempty_trimBackwards {bytes : List UInt8} (nonempty : bytes ≠ []) :
    trimBackwards bytes ≠ [] := by
  induction bytes using trimBackwards.induct with
  | case1 last before rest dropped ih =>
      rw [trimBackwards, if_pos dropped]
      exact ih (List.cons_ne_nil _ _)
  | case2 last before rest kept =>
      rw [trimBackwards, if_neg kept]
      exact List.cons_ne_nil _ _
  | case3 bytes short => rwa [trimBackwards.eq_2 _ short]

theorem trimmed_join_congr : (path.trimmed.join next).SameComponents (path.join next) := by
  by_cases empty : path.text = ""
  · have same : path.trimmed = path := by
      obtain ⟨text⟩ := path
      cases empty
      rfl
    rw [same]
    rfl
  · refine join_congr components_trimmed ?_ empty
    have chars : path.text.bytes.reverse ≠ [] := by simpa using empty
    simpa [trimmed] using nonempty_trimBackwards chars

/-- A name ends a path with nothing behind it to drop. -/
theorem trimBackwards_name (name : IsName text) (behind : List UInt8) :
    trimBackwards (text.bytes.reverse ++ behind) = text.bytes.reverse ++ behind := by
  have clean : slash ∉ text.bytes.reverse := by simpa using name.clean
  have notDot : text.bytes.reverse ≠ [dot] := fun same => by
    refine name.down.2.1 (RawText.ext_bytes (List.reverse_injective ?_))
    exact same
  have nonempty : text.bytes.reverse ≠ [] := by simpa using name.down.1
  refine trimBackwards_of_fixed ?_
  intro last before rest begun dropped
  cases chars : text.bytes.reverse with
  | nil => exact nonempty chars
  | cons first front =>
      rw [chars] at clean notDot begun
      rw [List.mem_cons, not_or] at clean
      obtain ⟨rfl, later⟩ := List.cons.inj begun
      rcases dropped with rfl | ⟨rfl, rfl⟩
      · exact clean.1 rfl
      · cases front with
        | nil => exact notDot rfl
        | cons next front => exact clean.2 ((List.cons.inj later).1 ▸ List.mem_cons_self ..)

theorem trimBackwards_separated (path : Path) :
    trimBackwards (path.text ++ path.separator).bytes.reverse =
      trimBackwards path.text.bytes.reverse := by
  unfold separator
  cases last : path.text.bytes.getLast? with
  | none => simp
  | some char =>
      by_cases separated : char = slash
      · simp [separated]
      · obtain ⟨front, whole⟩ := List.getLast?_eq_some_iff.mp last
        simp [separated, whole, trimBackwards]

theorem isRelative_name (name : IsName text) : (Path.mk text).isAbsolute = false :=
  isRelative_of_clean name.clean

theorem dropWhile_separated (path : Path) :
    (path.text ++ path.separator).bytes.reverse.dropWhile (· ≠ slash) =
      (path.text ++ path.separator).bytes.reverse := by
  unfold separator
  cases last : path.text.bytes.getLast? with
  | none =>
      have empty : path.text = "" := by simpa using last
      simp [empty]
  | some char =>
      by_cases separated : char = slash
      · obtain ⟨front, whole⟩ := List.getLast?_eq_some_iff.mp last
        simp [separated, whole]
      · simp [separated]

/-- The parent of a joined name is what it was joined to. -/
theorem parent?_join (name : IsName text) (base : Path) :
    (base.join ⟨text⟩).parent? = some base.trimmed := by
  have chars : (base.join ⟨text⟩).text.bytes.reverse =
      text.bytes.reverse ++ (base.text ++ base.separator).bytes.reverse := by
    rw [join_relative (isRelative_name name)]
    simp
  have clean : slash ∉ text.bytes.reverse := by simpa using name.clean
  have passed : ∀ char ∈ text.bytes.reverse, decide (char ≠ slash) = true := by
    intro char member
    have different : char ≠ slash := fun same => clean (same ▸ member)
    simpa using different
  have first : text.bytes.reverse ≠ [] := by simpa using name.down.1
  have more : ¬(text.bytes.reverse ++ (base.text ++ base.separator).bytes.reverse = [] ∨
      text.bytes.reverse ++ (base.text ++ base.separator).bytes.reverse = [slash]) := by
    rintro (none | bare)
    · exact first (List.append_eq_nil_iff.mp none).1
    · have head := congrArg List.head? bare
      rw [List.head?_append_of_ne_nil _ first] at head
      exact clean (List.mem_of_mem_head? head)
  rw [parent?, chars, trimBackwards_name name, if_neg more, List.dropWhile_append_of_pos passed,
    dropWhile_separated, trimBackwards_separated]
  rfl

theorem trimmed_join (name : IsName text) (base : Path) :
    (base.join ⟨text⟩).trimmed = base.join ⟨text⟩ := by
  have chars : (base.join ⟨text⟩).text.bytes.reverse =
      text.bytes.reverse ++ (base.text ++ base.separator).bytes.reverse := by
    rw [join_relative (isRelative_name name)]
    simp
  rw [trimmed, chars, trimBackwards_name name, ← chars, List.reverse_reverse]

theorem getLast?_parts_separated :
    ((left ++ "/" ++ right).parts slash).getLast? = (right.parts slash).getLast? := by
  rw [parts_separated, List.getLast?_append_of_ne_nil _ (parts_ne_nil right)]

theorem getLast?_parts_join :
    ((base.join next).text.parts slash).getLast? = (next.text.parts slash).getLast? := by
  cases absolute : next.isAbsolute with
  | true => rw [join, if_pos absolute]
  | false =>
      by_cases empty : base.text = ""
      · rw [join_relative absolute, separator]
        simp [empty]
      · obtain ⟨front, _, joined⟩ := join_separated empty absolute
        rw [joined, getLast?_parts_separated]

theorem getLast?_parts_foldl_join (some : pieces ≠ []) (clean : ∀ piece ∈ pieces, slash ∉ piece.bytes) :
    ((pieces.foldl (fun path piece => path.join ⟨piece⟩) base).text.parts slash).getLast? =
      pieces.getLast? := by
  have last := List.dropLast_append_getLast some
  have plain := clean _ (List.getLast_mem some)
  rw [← last, List.foldl_append, List.foldl_cons, List.foldl_nil, getLast?_parts_join,
    parts_of_clean plain, List.getLast?_append_of_ne_nil _ (List.cons_ne_nil _ _)]

/-- The names that do not stay where they are. -/
def moves (names : List RawText) : List RawText :=
  names.filter fun name => !(name = "" ∨ name = ".")

theorem moves_stay {name : RawText} {names : List RawText} (stays : name = "" ∨ name = ".") :
    moves (name :: names) = moves names :=
  List.filter_cons_of_neg (by simp [stays])

theorem moves_move {name : RawText} {names : List RawText} (down : ¬(name = "" ∨ name = ".")) :
    moves (name :: names) = name :: moves names :=
  List.filter_cons_of_pos (by simp [down])

/-- A name that moves, as a component. -/
def componentOf (name : RawText) : Component :=
  if name = ".." then .parent else .name name

theorem componentOf_injective : Function.Injective componentOf := by
  intro left right same
  unfold componentOf at same
  split at same
  · next here =>
      split at same
      · next there => exact here.trans there.symm
      · cases same
  · split at same
    · cases same
    · exact Component.name.inj same

theorem filterMap_componentOf? (names : List RawText) :
    names.filterMap componentOf? = (moves names).map componentOf := by
  induction names with
  | nil => rfl
  | cons name rest ih =>
      by_cases stays : name = "" ∨ name = "."
      · rw [moves_stay stays, List.filterMap_cons_none (by simp [componentOf?, stays]), ih]
      · have step : componentOf? name = some (componentOf name) := by
          rw [componentOf?, if_neg stays, componentOf]
          split <;> rfl
        rw [moves_move stays, List.filterMap_cons_some step, ih, List.map_cons]

theorem moves_congr (same : path.SameComponents other) :
    moves (path.text.parts slash) = moves (other.text.parts slash) := by
  have steps := (sameComponents_iff.mp same).2
  rw [stepsOf, stepsOf, filterMap_componentOf?, filterMap_componentOf?] at steps
  exact List.map_injective_iff.mpr componentOf_injective steps

end Path

namespace FileSystem

variable {files : FileSystem} {here location : Location} {names : List RawText}
  {path other : Path} {name : RawText} {content : ByteArray}

open AppBundle.Path

theorem follow_cons :
    files.follow here (name :: names) = .ok location ↔
      ∃ next, files.follow here [name] = .ok next ∧ files.follow next names = .ok location := by
  rw [← bind_ok, ← follow_append]
  rfl

theorem follow_stay (stays : name = "" ∨ name = ".") :
    files.follow here [name] = .ok location ↔
      files.entryAt? here = some .directory ∧ location = here := by
  rw [follow]
  split
  · next absent => simp [absent]
  · next isFile => simp [isFile]
  · next isDirectory => simp [isDirectory, stays, follow, eq_comm]

theorem directory_of_follow (led : files.follow here (name :: names) = .ok location) :
    files.entryAt? here = some .directory := by
  rw [follow] at led
  split at led
  · cases led
  · cases led
  · assumption

theorem follow_moves (led : files.follow here names = .ok location) :
    files.follow here (moves names) = .ok location := by
  induction names generalizing here with
  | nil => exact led
  | cons name rest ih =>
      obtain ⟨next, stepped, later⟩ := follow_cons.mp led
      by_cases stays : name = "" ∨ name = "."
      · obtain ⟨_, rfl⟩ := (follow_stay stays).mp stepped
        rw [moves_stay stays]
        exact ih later
      · rw [moves_move stays]
        exact follow_cons.mpr ⟨next, stepped, ih later⟩

/-- Names that stay may be put between others, since these are followed from directories only. -/
theorem follow_of_moves (led : files.follow here (moves names) = .ok location)
    (last : ∀ name ∈ names.getLast?, ¬(name = "" ∨ name = ".")) :
    files.follow here names = .ok location := by
  induction names generalizing here with
  | nil => exact led
  | cons name rest ih =>
      have later : ∀ name ∈ rest.getLast?, ¬(name = "" ∨ name = ".") := by
        intro other final
        cases rest with
        | nil => cases final
        | cons next rest => exact last other (by rwa [List.getLast?_cons_cons])
      by_cases stays : name = "" ∨ name = "."
      · rw [moves_stay stays] at led
        have onwards := ih led later
        -- the last name moves, so that there is a name behind this one
        cases rest with
        | nil => exact absurd stays (last name rfl)
        | cons next rest =>
            have isDirectory := directory_of_follow onwards
            exact follow_cons.mpr ⟨here, (follow_stay stays).mpr ⟨isDirectory, rfl⟩, onwards⟩
      · rw [moves_move stays] at led
        obtain ⟨next, stepped, led⟩ := follow_cons.mp led
        exact follow_cons.mpr ⟨next, stepped, ih led later⟩

theorem directory_of_stay (led : files.follow here names = .ok location)
    (last : name ∈ names.getLast?) (stays : name = "" ∨ name = ".") :
    files.entryAt? location = some .directory := by
  rw [← List.dropLast_append_getLast? name last, follow_append] at led
  obtain ⟨there, _, stayed⟩ := bind_ok.mp led
  obtain ⟨isDirectory, rfl⟩ := (follow_stay stays).mp stayed
  exact isDirectory

theorem start_names (files : FileSystem) (path : Path) :
    moves (files.start path).2 = moves (path.text.parts slash) ∧
      (files.start path).2.getLast? = (path.text.parts slash).getLast? := by
  unfold start
  by_cases absolute : path.isAbsolute = true
  · obtain ⟨rest, chars⟩ : ∃ rest, path.text.bytes = slash :: rest := by
      refine List.head?_eq_some_iff.mp ?_
      simpa [isAbsolute] using absolute
    have parts : path.text.parts slash = ("" : RawText) :: (rest.splitOn slash).map RawText.mk := by
      rw [RawText.parts, chars, List.splitOn_cons_eq_if_modifyHead]
      rfl
    have more : (rest.splitOn slash).map RawText.mk ≠ [] := by simp
    simp only [absolute, if_true, parts, List.tail_cons, List.getLast?_cons_of_ne_nil more,
      moves_stay, true_or, and_self]
  · simp [absolute]

/-- Of two paths with the same components and the same last name each reads what the other reads, as
long as both are short enough. -/
theorem read?_of_components (same : path.SameComponents other)
    (ends : (path.text.parts slash).getLast? = (other.text.parts slash).getLast?)
    (admitted : admits path = true) (read : files.read? other = some content) :
    files.read? path = some content := by
  obtain ⟨located, found⟩ := read?_eq_some.mp read
  obtain ⟨_, _, led⟩ := locate_ok located
  obtain ⟨moved, final⟩ := files.start_names path
  obtain ⟨otherMoved, otherFinal⟩ := files.start_names other
  -- a path whose last name stays would lead to a directory
  have moving : ∀ name ∈ (files.start path).2.getLast?, ¬(name = "" ∨ name = ".") := by
    intro name last stays
    rw [final, ends, ← otherFinal] at last
    rw [contentAt?_eq_some, directory_of_stay led last stays] at found
    cases found
  have nonempty : path.text ≠ "" := by
    intro empty
    refine moving "" ?_ (.inl rfl)
    rw [final, empty]
    rfl
  have begun : (files.start path).1 = (files.start other).1 := by
    simp only [start, isAbsolute_congr same]
    split <;> rfl
  have arrives : files.locate path = .ok (files.destination other) := by
    unfold locate
    simp only [admitted, nonempty, Bool.not_true, Bool.false_eq_true, if_false]
    refine follow_of_moves ?_ moving
    rw [moved, moves_congr same, ← otherMoved, begun]
    exact follow_moves led
  rw [read?_eq_some, ← destination_of_locate arrives]
  exact ⟨arrives, found⟩

end FileSystem

end AppBundle
