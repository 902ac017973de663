import AppBundle.Xml.Attribute

namespace AppBundle.Xml

/-!
Events of a document. Tags are matched with each other, comments and processing instructions are
dropped, and what text stands together is one event. Text keeps its written form in pieces:
`charactersOf?` gives the characters they stand for.
-/

inductive Piece where
  | written (raw : List Char)
  | literal (content : List Char)
deriving DecidableEq

namespace Piece

/-- The characters of a piece, if every reference in it is known. -/
def characters? : Piece → Option (List Char)
  | written raw => unescape? raw
  | literal content => some content

def isBlank : Piece → Bool
  | written raw => raw.all isSpace
  | literal _ => false

def trimEnd : Piece → Piece
  | written raw => written (Text.trimEndWhile isSpace raw)
  | literal content => literal content

def trimStartAll : List Piece → List Piece
  | written raw :: rest =>
      match raw.dropWhile isSpace with
      | [] => trimStartAll rest
      | trimmed => written trimmed :: rest
  | pieces => pieces

def trimEndAll : List Piece → List Piece
  | [] => []
  | [last] => [last.trimEnd]
  | first :: rest => first :: trimEndAll rest

/-- The characters that consecutive pieces stand for, without the written space behind them. -/
def charactersOf? (pieces : List Piece) : Option String :=
  ((trimEndAll pieces).mapM characters?).map fun parts => String.ofList parts.flatten

end Piece

inductive Event where
  | text (pieces : List Piece)
  | opening (tag : Tag)
  | closing
  | declaration
  /-- From here on the document has no proper form. -/
  | malformed
deriving DecidableEq

/-- Puts text, whose pieces are given with the last one first, in front of some events. -/
def flush (backwards : List Piece) (events : List Event) : List Event :=
  if backwards = [] then events else .text backwards.reverse :: events

/-- The events of some tokens inside open elements, the innermost first, and behind some text. -/
def eventsOf : List String → List Piece → List Token → List Event
  | _, backwards, [] => flush backwards []
  | opened, backwards, .text raw :: rest => eventsOf opened (.written raw :: backwards) rest
  | opened, backwards, .literal content :: rest =>
      eventsOf opened (.literal content :: backwards) rest
  | opened, backwards, .aside :: rest => eventsOf opened backwards rest
  | opened, backwards, .declaration :: rest =>
      flush backwards (.declaration :: eventsOf opened [] rest)
  | opened, backwards, .opening tag :: rest =>
      flush backwards (.opening tag :: eventsOf (tag.name :: opened) [] rest)
  | opened, backwards, .closing name :: rest =>
      match opened with
      | innermost :: outer =>
          if innermost = name then flush backwards (.closing :: eventsOf outer [] rest)
          else flush backwards [.malformed]
      | [] => flush backwards [.malformed]
  | _, backwards, .malformed :: _ => flush backwards [.malformed]

/-- A mark that may stand at the head of a text and is no part of it. -/
def byteOrderMark : Char := Char.ofNat 0xFEFF

def events (text : String) : List Event :=
  let chars :=
    match text.toList with
    | [] => []
    | first :: rest => if first = byteOrderMark then rest else first :: rest
  eventsOf [] [] (tokens chars)

end AppBundle.Xml
