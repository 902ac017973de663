import AppBundle.Json.Token

namespace AppBundle.Json

/-!
JSON documents as far as they are well-formed. A document is read up to its first mistake, and the
mistake keeps its place: a container that is cut short is not `closed`, and a value that is missing
is `broken`. Readers of values go through a document in the order of its text, so that whichever
objection comes first in the text is the one they report.
-/

inductive Document where
  | null
  | boolean (value : Bool)
  | number (numeral : Numeral)
  | text (value : String)
  | unreadable
  | array (items : List Document) (closed : Bool)
  /-- Keys that stand for no text are kept as nothing. -/
  | object (members : List (Option String × Document)) (closed : Bool)
  | broken

/-- A container that is still open. Items and members are kept with the last one first. -/
inductive Frame where
  | array (items : List Document)
  | object (members : List (Option String × Document))
  /-- An object whose latest key has no value yet. -/
  | member (members : List (Option String × Document)) (key : Option String)

inductive Expected where
  | value
  | firstItem
  | firstKey
  | key
  | colon
  | separator
deriving DecidableEq

/-- A reading in progress: the open containers, innermost first. -/
structure Reading where
  frames : List Frame
  expected : Expected

/-- Closes what is still open around a part that the text breaks off after. -/
def cutShort : List Frame → Document → Document
  | [], inner => inner
  | .array items :: outer, inner => cutShort outer (.array (inner :: items).reverse false)
  | .object members :: outer, _ => cutShort outer (.object members.reverse false)
  | .member members key :: outer, inner =>
      cutShort outer (.object ((key, inner) :: members).reverse false)

/-- The document of a reading that ends here. -/
def Reading.abandon (reading : Reading) : Document :=
  match reading.expected, reading.frames with
  | .value, frames => cutShort frames .broken
  | .colon, frames => cutShort frames .broken
  | _, .array items :: outer => cutShort outer (.array items.reverse false)
  | _, .object members :: outer => cutShort outer (.object members.reverse false)
  | _, frames => cutShort frames .broken

/-- One step of a reading: it goes on, or it is complete, or the token does not fit. -/
inductive Progress where
  | ongoing (reading : Reading)
  | complete (document : Document)
  | stuck (document : Document)

/-- Puts a complete value into the innermost open container. -/
def place (value : Document) : List Frame → Progress
  | [] => .complete value
  | .array items :: outer => .ongoing ⟨.array (value :: items) :: outer, .separator⟩
  | .member members key :: outer =>
      .ongoing ⟨.object ((key, value) :: members) :: outer, .separator⟩
  | .object members :: outer => .stuck (cutShort outer (.object members.reverse false))

def Reading.beginValue (reading : Reading) : Token → Progress
  | .null => place .null reading.frames
  | .boolean value => place (.boolean value) reading.frames
  | .number numeral => place (.number numeral) reading.frames
  | .text value => place (.text value) reading.frames
  | .unreadable => place .unreadable reading.frames
  | .openArray => .ongoing ⟨.array [] :: reading.frames, .firstItem⟩
  | .openObject => .ongoing ⟨.object [] :: reading.frames, .firstKey⟩
  | _ => .stuck reading.abandon

def Reading.beginMember (reading : Reading) (key : Option String) : Progress :=
  match reading.frames with
  | .object members :: outer => .ongoing ⟨.member members key :: outer, .colon⟩
  | _ => .stuck reading.abandon

def Reading.closeArray (reading : Reading) : Progress :=
  match reading.frames with
  | .array items :: outer => place (.array items.reverse true) outer
  | _ => .stuck reading.abandon

def Reading.closeObject (reading : Reading) : Progress :=
  match reading.frames with
  | .object members :: outer => place (.object members.reverse true) outer
  | _ => .stuck reading.abandon

def Reading.proceed (reading : Reading) : Progress :=
  match reading.frames with
  | .array _ :: _ => .ongoing { reading with expected := .value }
  | .object _ :: _ => .ongoing { reading with expected := .key }
  | _ => .stuck reading.abandon

def Reading.step (reading : Reading) (token : Token) : Progress :=
  match reading.expected, token with
  | .value, token => reading.beginValue token
  | .firstItem, .closeArray => reading.closeArray
  | .firstItem, token => reading.beginValue token
  | .firstKey, .text key => reading.beginMember (some key)
  | .firstKey, .unreadable => reading.beginMember none
  | .firstKey, .closeObject => reading.closeObject
  | .key, .text key => reading.beginMember (some key)
  | .key, .unreadable => reading.beginMember none
  | .colon, .colon => .ongoing { reading with expected := .value }
  | .separator, .comma => reading.proceed
  | .separator, .closeArray => reading.closeArray
  | .separator, .closeObject => reading.closeObject
  | _, _ => .stuck reading.abandon

/-- Reads on until the value is complete or a token does not fit. -/
def Reading.run (reading : Reading) : List Token → Document × List Token
  | [] => (reading.abandon, [])
  | token :: rest =>
      match reading.step token with
      | .ongoing next => next.run rest
      | .complete document => (document, rest)
      | .stuck document => (document, rest)

/-- The value at the head of some tokens, and the tokens after it. -/
def Document.ofTokens (tokens : List Token) : Document × List Token :=
  Reading.run ⟨[], .value⟩ tokens

/-- Whether a document has no mistake in it. Everything after the first mistake is cut off, so the
outermost container shows whether there was one. -/
def Document.isComplete : Document → Bool
  | .broken => false
  | .array _ closed => closed
  | .object _ closed => closed
  | _ => true

end AppBundle.Json
