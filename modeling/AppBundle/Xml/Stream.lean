import AppBundle.Xml.Event
import AppBundle.Xml.Scope

namespace AppBundle.Xml

/-!
Reading a document part by part. A part is a tag or the text between two tags. An element can be
skipped without a look at what it holds; the declarations of a skipped element stay in force where
its end tag is passed over unread, as the end tags of outer elements then end inner scopes.
-/

structure Stream where
  scope : Scope
  /-- Whether space in front of the next text is dropped. Behind skipped text it is not. -/
  trims : Bool
  rest : List Event

inductive Part where
  | text (content : String)
  | opening (tag : Tag)
  | closing
  /-- Nothing is left. -/
  | finish
deriving DecidableEq

namespace Stream

def ofText (text : String) : Stream := ⟨[], true, events text⟩

/-- The pieces of the next text that can be seen. -/
def visible (trims : Bool) (pieces : List Piece) : List Piece :=
  if trims then Piece.trimStartAll pieces else pieces

/-- Whether the text consists of nothing but space. -/
def areBlank : List Piece → Bool
  | [] => true
  | [only] => only.isBlank
  | _ => false

/-- Reads the next part of some events. Nothing comes back where they have no proper form, where a
text holds an unknown reference, or where a tag declares what it may not. -/
def nextOf (scope : Scope) (trims : Bool) : List Event → Option (Part × Stream)
  | [] => some (.finish, ⟨scope, true, []⟩)
  | .declaration :: rest => nextOf scope true rest
  | .opening tag :: rest => (scope.enter? tag).map fun inner => (.opening tag, ⟨inner, true, rest⟩)
  | .closing :: rest => some (.closing, ⟨scope.leave, true, rest⟩)
  | .malformed :: _ => none
  | .text pieces :: rest =>
      let seen := visible trims pieces
      if areBlank seen then nextOf scope trims rest
      else (Piece.charactersOf? seen).map fun content => (.text content, ⟨scope, false, rest⟩)

def next (stream : Stream) : Option (Part × Stream) :=
  nextOf stream.scope stream.trims stream.rest

/-- What follows the end tag of the outermost of `count + 1` open elements. -/
def behind : Nat → List Event → Option (List Event)
  | _, [] => none
  | _, .malformed :: _ => none
  | count, .opening _ :: rest => behind (count + 1) rest
  | 0, .closing :: rest => some rest
  | count + 1, .closing :: rest => behind count rest
  | count, _ :: rest => behind count rest

/-- Leaves an element from some point in it. The next event is looked at: only if it is the end tag
are the declarations of the element dropped, and if it is a start tag its own are added. -/
def leaveOf (scope : Scope) (trims : Bool) : List Event → Option Stream
  | [] => none
  | .malformed :: _ => none
  | .closing :: rest => some ⟨scope.leave, true, rest⟩
  | .opening tag :: rest => do
      let inner ← scope.enter? tag
      let after ← behind 1 rest
      return ⟨inner, true, after⟩
  | .declaration :: rest => (behind 0 rest).map (⟨scope, true, ·⟩)
  | .text pieces :: rest =>
      if visible trims pieces = [] then leaveOf scope trims rest
      else (behind 0 rest).map (⟨scope, false, ·⟩)

def leave (stream : Stream) : Option Stream :=
  leaveOf stream.scope stream.trims stream.rest

/-- Skips the rest of an element behind its start tag. Its first part is read. -/
def skip (stream : Stream) : Option Stream := do
  let (part, after) ← stream.next
  match part with
  | .closing => return after
  | .opening _ => (← after.leave).leave
  | .text _ => after.leave
  | .finish => none

/-- Reads the text of an element, which holds nothing else, behind its start tag. -/
def elementText (stream : Stream) : Option (String × Stream) := do
  match ← stream.next with
  | (.closing, after) => return ("", after)
  | (.text content, after) =>
      match ← after.next with
      | (.closing, behind) => return (content, behind)
      | _ => none
  | _ => none

/-- The scope in which the next event will be read: a start tag shows before it is read. -/
def aheadOf (scope : Scope) (trims : Bool) : List Event → Option Scope
  | .opening tag :: _ => scope.enter? tag
  | .text pieces :: rest =>
      if visible trims pieces = [] then aheadOf scope trims rest else some scope
  | _ => some scope

def aheadScope? (stream : Stream) : Option Scope :=
  aheadOf stream.scope stream.trims stream.rest

theorem nextOf_length {scope : Scope} {trims : Bool} {events : List Event} {part : Part}
    {after : Stream} (read : nextOf scope trims events = some (part, after)) :
    after.rest.length ≤ events.length := by
  fun_induction nextOf scope trims events with
  | case1 => cases read; exact Nat.le_refl _
  | case2 _ rest ih => exact Nat.le_succ_of_le (ih read)
  | case3 trims tag rest =>
      obtain ⟨inner, -, same⟩ := Option.map_eq_some_iff.mp read
      cases same
      exact Nat.le_succ _
  | case4 => cases read; exact Nat.le_succ _
  | case5 => cases read
  | case6 _ _ rest _ _ ih => exact Nat.le_succ_of_le (ih read)
  | case7 trims pieces rest =>
      obtain ⟨content, -, same⟩ := Option.map_eq_some_iff.mp read
      cases same
      exact Nat.le_succ _

theorem nextOf_shorter {scope : Scope} {trims : Bool} {events : List Event} {part : Part}
    {after : Stream} (read : nextOf scope trims events = some (part, after))
    (unfinished : part ≠ .finish) : after.rest.length < events.length := by
  fun_induction nextOf scope trims events with
  | case1 => cases read; exact absurd rfl unfinished
  | case2 _ rest ih => exact Nat.lt_succ_of_lt (ih read)
  | case3 trims tag rest =>
      obtain ⟨inner, -, same⟩ := Option.map_eq_some_iff.mp read
      cases same
      exact Nat.lt_succ_self _
  | case4 => cases read; exact Nat.lt_succ_self _
  | case5 => cases read
  | case6 _ _ rest _ _ ih => exact Nat.lt_succ_of_lt (ih read)
  | case7 trims pieces rest =>
      obtain ⟨content, -, same⟩ := Option.map_eq_some_iff.mp read
      cases same
      exact Nat.lt_succ_self _

theorem behind_length {count : Nat} {events rest : List Event}
    (found : behind count events = some rest) : rest.length ≤ events.length := by
  fun_induction behind count events with
  | case1 => cases found
  | case2 => cases found
  | case3 _ _ _ ih => exact Nat.le_succ_of_le (ih found)
  | case4 => cases found; exact Nat.le_succ _
  | case5 _ _ ih => exact Nat.le_succ_of_le (ih found)
  | case6 _ _ _ _ _ _ _ ih => exact Nat.le_succ_of_le (ih found)

theorem leaveOf_length {scope : Scope} {trims : Bool} {events : List Event} {after : Stream}
    (left : leaveOf scope trims events = some after) : after.rest.length ≤ events.length := by
  fun_induction leaveOf scope trims events with
  | case1 => cases left
  | case2 => cases left
  | case3 => cases left; exact Nat.le_succ _
  | case4 tag rest =>
      obtain ⟨inner, -, found⟩ := Option.bind_eq_some_iff.mp left
      obtain ⟨events, isBehind, same⟩ := Option.bind_eq_some_iff.mp found
      cases same
      exact Nat.le_succ_of_le (behind_length isBehind)
  | case5 rest =>
      obtain ⟨events, isBehind, same⟩ := Option.map_eq_some_iff.mp left
      cases same
      exact Nat.le_succ_of_le (behind_length isBehind)
  | case6 _ _ _ ih => exact Nat.le_succ_of_le (ih left)
  | case7 pieces rest =>
      obtain ⟨events, isBehind, same⟩ := Option.map_eq_some_iff.mp left
      cases same
      exact Nat.le_succ_of_le (behind_length isBehind)

theorem skip_length {stream after : Stream} (skipped : stream.skip = some after) :
    after.rest.length ≤ stream.rest.length := by
  obtain ⟨⟨part, inside⟩, read, skipped⟩ := Option.bind_eq_some_iff.mp skipped
  have shorter := nextOf_length read
  cases part with
  | closing => cases skipped; exact shorter
  | opening tag =>
      obtain ⟨between, first, second⟩ := Option.bind_eq_some_iff.mp skipped
      exact Nat.le_trans (leaveOf_length second) (Nat.le_trans (leaveOf_length first) shorter)
  | text content => exact Nat.le_trans (leaveOf_length skipped) shorter
  | finish => cases skipped

theorem elementText_length {stream after : Stream} {content : String}
    (read : stream.elementText = some (content, after)) :
    after.rest.length ≤ stream.rest.length := by
  obtain ⟨⟨part, inside⟩, first, read⟩ := Option.bind_eq_some_iff.mp read
  have shorter := nextOf_length first
  cases part with
  | closing => cases read; exact shorter
  | opening tag => cases read
  | text content =>
      obtain ⟨⟨last, outside⟩, second, read⟩ := Option.bind_eq_some_iff.mp read
      cases last with
      | closing => cases read; exact Nat.le_trans (nextOf_length second) shorter
      | _ => cases read
  | finish => cases read

end Stream

end AppBundle.Xml
