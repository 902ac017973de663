namespace AppBundle.Text

/-!
Blank characters and trimming. A character is blank when Unicode lists it as `White_Space`.
-/

/-- The blank characters: ASCII space and controls, the line separators and the Unicode spaces. -/
def isBlank (char : Char) : Bool :=
  let code := char.toNat
  (9 ≤ code && code ≤ 13) || code == 0x20 || code == 0x85 || code == 0xA0 || code == 0x1680 ||
    (0x2000 ≤ code && code ≤ 0x200A) || code == 0x2028 || code == 0x2029 || code == 0x202F ||
    code == 0x205F || code == 0x3000

def trimEndWhile (drops : Char → Bool) (chars : List Char) : List Char :=
  (chars.reverse.dropWhile drops).reverse

def trimWhile (drops : Char → Bool) (chars : List Char) : List Char :=
  trimEndWhile drops (chars.dropWhile drops)

/-- Drops the blank characters from both ends. -/
def trim (text : String) : String :=
  String.ofList (trimWhile isBlank text.toList)

/-- Lower case for the ASCII letters; every other character stays. -/
def lowerAscii (text : String) : String :=
  String.ofList (text.toList.map Char.toLower)

def replaceChar (old new : Char) (text : String) : String :=
  String.ofList (text.toList.map fun char => if char = old then new else char)

/-- The parts of a text between the separators; a text without one is its only part. -/
def parts (separator : Char) (text : String) : List String :=
  (text.toList.splitOn separator).map String.ofList

def joined (separator : Char) (pieces : List String) : String :=
  String.ofList (List.intercalate [separator] (pieces.map String.toList))

theorem joined_parts (separator : Char) (text : String) :
    joined separator (parts separator text) = text := by
  simp [joined, parts, List.map_map, Function.comp_def]

end AppBundle.Text
