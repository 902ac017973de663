import AppBundle.Text.Escaped

namespace AppBundle.Text

/-!
Quoted text, as messages show names and file paths: double quotes around it, a backslash before
quotes and backslashes, short escapes for the common controls, and the code point in braces for
every other character that does not show. An apostrophe stands for itself.
-/

/-- The written form of a character by its code point in lower-case hexadecimal. -/
def codePointEscape (char : Char) : List Char :=
  '\\' :: 'u' :: '\x7b' :: (Nat.toDigits 16 char.toNat ++ ['\x7d'])

def quotedChar (char : Char) : List Char :=
  if char = '\x00' then ['\\', '0']
  else if char = '\t' then ['\\', 't']
  else if char = '\n' then ['\\', 'n']
  else if char = '\x0d' then ['\\', 'r']
  else if char = '\\' then ['\\', '\\']
  else if char = '"' then ['\\', '"']
  else if isEscaped char then codePointEscape char
  else [char]

def quoted (text : String) : String :=
  String.ofList ('"' :: (text.toList.flatMap quotedChar ++ ['"']))

end AppBundle.Text
