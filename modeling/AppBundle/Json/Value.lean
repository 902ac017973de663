namespace AppBundle

/-!
JSON values to be written, and their two written forms. One function writes both: a `Layout` says
what stands where a line may break and after a colon, so the pretty form can differ from the
compact one in white space only.
-/

inductive Json where
  | null
  | boolean (value : Bool)
  | natural (value : Nat)
  | text (value : String)
  | array (items : List Json)
  | object (members : List (String × Json))

namespace Json

/-- Four hexadecimal digits of a control character. -/
def controlEscape (char : Char) : List Char :=
  let digits := Nat.toDigits 16 char.toNat
  ['\\', 'u'] ++ List.replicate (4 - digits.length) '0' ++ digits

/-- Quotes, backslashes and control characters are escaped, everything else stands for itself. -/
def escapedChar (char : Char) : List Char :=
  if char = '"' then ['\\', '"']
  else if char = '\\' then ['\\', '\\']
  else if char = '\x08' then ['\\', 'b']
  else if char = '\x0c' then ['\\', 'f']
  else if char = '\n' then ['\\', 'n']
  else if char = '\x0d' then ['\\', 'r']
  else if char = '\t' then ['\\', 't']
  else if char.toNat < 0x20 then controlEscape char
  else [char]

def writeText (text : String) : List Char :=
  '"' :: (text.toList.flatMap escapedChar ++ ['"'])

structure Layout where
  /-- What stands where a line may break, at a depth of nesting. -/
  lineBreak : Nat → List Char
  afterColon : List Char

def Layout.compact : Layout := ⟨fun _ => [], []⟩

/-- A line for each item, two spaces deeper than its container. -/
def Layout.pretty : Layout := ⟨fun depth => '\n' :: List.replicate (2 * depth) ' ', [' ']⟩

def Layout.of (pretty : Bool) : Layout :=
  if pretty then .pretty else .compact

mutual

/-- Writes a value whose lines lie `depth` levels deep. -/
def write (layout : Layout) (depth : Nat) : Json → List Char
  | null => ['n', 'u', 'l', 'l']
  | boolean true => ['t', 'r', 'u', 'e']
  | boolean false => ['f', 'a', 'l', 's', 'e']
  | natural value => Nat.toDigits 10 value
  | text value => writeText value
  | array [] => ['[', ']']
  | array (item :: rest) =>
      '[' :: (layout.lineBreak (depth + 1) ++ write layout (depth + 1) item ++
        writeItems layout (depth + 1) rest ++ layout.lineBreak depth ++ [']'])
  | object [] => ['\x7b', '\x7d']
  | object (member :: rest) =>
      '\x7b' :: (layout.lineBreak (depth + 1) ++ writeMember layout (depth + 1) member ++
        writeMembers layout (depth + 1) rest ++ layout.lineBreak depth ++ ['\x7d'])

def writeItems (layout : Layout) (depth : Nat) : List Json → List Char
  | [] => []
  | item :: rest =>
      ',' :: (layout.lineBreak depth ++ write layout depth item ++ writeItems layout depth rest)

def writeMember (layout : Layout) (depth : Nat) : String × Json → List Char
  | (key, value) => writeText key ++ ':' :: (layout.afterColon ++ write layout depth value)

def writeMembers (layout : Layout) (depth : Nat) : List (String × Json) → List Char
  | [] => []
  | member :: rest =>
      ',' :: (layout.lineBreak depth ++ writeMember layout depth member ++
        writeMembers layout depth rest)

end

/-- The text of a value, with line breaks or without. -/
def render (value : Json) (pretty : Bool) : String :=
  String.ofList (value.write (.of pretty) 0)

def compact (value : Json) : String := value.render false

def texts (items : List String) : Json :=
  array (items.map text)

def optionalText : Option String → Json
  | none => null
  | some value => text value

end Json

end AppBundle
