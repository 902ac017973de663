namespace AppBundle.Archive

/-!
Little-endian numbers, at a position of a file or in some bytes.
-/

def numberOf : List UInt8 → Nat
  | [] => 0
  | low :: rest => low.toNat + 256 * numberOf rest

/-- A number of some bytes at a position, if they are there. -/
def number? (content : ByteArray) (position : Nat) : Nat → Option Nat
  | 0 => some 0
  | count + 1 => do
      let low ← content[position]?
      let high ← number? content (position + 1) count
      return low.toNat + 256 * high

def half? (content : ByteArray) (position : Nat) : Option Nat := number? content position 2

def word? (content : ByteArray) (position : Nat) : Option Nat := number? content position 4

def wide? (content : ByteArray) (position : Nat) : Option Nat := number? content position 8

/-- Stands in a half or a word for a number that a wider field holds. -/
def halfMax : Nat := 0xFFFF

def wordMax : Nat := 0xFFFFFFFF

/-- The bytes from a position on, if all are there. -/
def bytes? (content : ByteArray) (position count : Nat) : Option (List UInt8) :=
  if position + count ≤ content.size then
    some (content.extract position (position + count)).toList
  else none

end AppBundle.Archive
