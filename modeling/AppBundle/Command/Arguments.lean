import AppBundle.Text.Raw

namespace AppBundle

/-!
Words of a command line as arguments, byte by byte. An option has a long name behind two dashes or a
short one behind one dash; its value is the rest of the word or the word after it. A word of two
dashes makes all words after it plain.
-/

structure OptionName where
  long : String
  short : Option Char
  takesValue : Bool
deriving DecidableEq

inductive Argument where
  | flag (option : OptionName)
  | setting (option : OptionName) (value : RawText)
  | plain (word : RawText)
  /-- An unknown option, or one with a value that it does not take, or without one that it needs. -/
  | faulty
deriving DecidableEq

namespace Argument

@[match_pattern]
abbrev dash : UInt8 := 0x2D

@[match_pattern]
abbrev equalsSign : UInt8 := 0x3D

/-- Words that begin like an option. A single dash does not. -/
def isOptionLike (word : RawText) : Bool :=
  match word.bytes with
  | dash :: _ :: _ => true
  | _ => false

/-- A setting whose value is the next word; the words after it remain. -/
def settingFrom (option : OptionName) : List RawText → Argument × List RawText
  | [] => (faulty, [])
  | value :: rest => if isOptionLike value then (faulty, []) else (setting option value, rest)

theorem settingFrom_length (option : OptionName) (words : List RawText) :
    (settingFrom option words).2.length ≤ words.length := by
  cases words with
  | nil => simp [settingFrom]
  | cons value rest =>
      simp only [settingFrom]
      split <;> simp

/-- Reads an option by its long name, which an equals sign may end. -/
def ofLong (known : List OptionName) (word : List UInt8) (rest : List RawText) :
    Argument × List RawText :=
  let name := word.takeWhile (· ≠ equalsSign)
  let attached := word.dropWhile (· ≠ equalsSign)
  match known.find? fun option => RawText.ofText option.long = ⟨name⟩ with
  | none => (faulty, [])
  | some option =>
      match attached with
      | [] => if option.takesValue then settingFrom option rest else (flag option, rest)
      | _ :: value =>
          if option.takesValue then (setting option ⟨value⟩, rest) else (faulty, [])

/-- Reads options by their short names. The first that takes a value takes the rest of the word. -/
def ofShort (known : List OptionName) (rest : List RawText) :
    List UInt8 → List Argument × List RawText
  | [] => ([], rest)
  | name :: more =>
      match known.find? fun option => option.short.map Char.toUInt8 = some name with
      | none => ([faulty], [])
      | some option =>
          if option.takesValue then
            match more with
            | [] => let (argument, left) := settingFrom option rest; ([argument], left)
            | equalsSign :: value => ([setting option ⟨value⟩], rest)
            | value => ([setting option ⟨value⟩], rest)
          else
            let (others, left) := ofShort known rest more
            (flag option :: others, left)

/-- The arguments at the head of some words, and the words after them. -/
def ofWord (known : List OptionName) (word : RawText) (rest : List RawText) :
    List Argument × List RawText :=
  match word.bytes with
  | [dash, dash] => (rest.map plain, [])
  | dash :: dash :: name => let (argument, left) := ofLong known name rest; ([argument], left)
  | dash :: name :: more => ofShort known rest (name :: more)
  | _ => ([plain word], rest)

theorem ofLong_length (known : List OptionName) (word : List UInt8) (rest : List RawText) :
    (ofLong known word rest).2.length ≤ rest.length := by
  unfold ofLong
  dsimp only
  split
  · simp
  · split
    · split
      · exact settingFrom_length _ _
      · exact Nat.le_refl _
    · split <;> simp

theorem ofShort_length (known : List OptionName) (rest : List RawText) (names : List UInt8) :
    (ofShort known rest names).2.length ≤ rest.length := by
  induction names with
  | nil => simp [ofShort]
  | cons name more ih =>
      unfold ofShort
      split
      · simp
      · split
        · split
          · exact settingFrom_length _ _
          · simp
          · simp
        · exact ih

theorem ofWord_length (known : List OptionName) (word : RawText) (rest : List RawText) :
    (ofWord known word rest).2.length ≤ rest.length := by
  unfold ofWord
  split
  · simp
  · exact ofLong_length ..
  · exact ofShort_length ..
  · simp

/-- The arguments that some words stand for. Nothing follows a faulty one. -/
def ofWords (known : List OptionName) : List RawText → List Argument
  | [] => []
  | word :: rest =>
      match _read : ofWord known word rest with
      | (arguments, left) => arguments ++ ofWords known left
termination_by words => words.length
decreasing_by
  have shorter := ofWord_length known word rest
  simp only [_read] at shorter
  simp only [List.length_cons]
  omega

end Argument

end AppBundle
