import AppBundle.Decimal.Shortest

namespace AppBundle.Json

/-!
Written numbers and what they stand for: a natural number or a negative one where 64 bits hold it,
and else a double. A double keeps as many leading digits as 64 bits hold and scales them by one
power of ten, so its last bit is not always the nearest one.
-/

/-- A number as it is written. A number without a point has no fraction digits. -/
structure Numeral where
  negative : Bool
  whole : List Nat
  fraction : List Nat
  /-- Whether the exponent is negative, and its digits. -/
  exponent : Option (Bool × List Nat)
deriving DecidableEq

inductive NumberValue where
  | natural (value : Nat)
  /-- The number below zero by a positive magnitude. -/
  | negative (magnitude : Nat)
  | real (value : Float)
  | tooLarge

def wordLimit : Nat := Decimal.twoTo 64

/-- Takes digits into a word while it holds them; gives the word and the digits left over. -/
def fillWord (word : Nat) : List Nat → Nat × List Nat
  | [] => (word, [])
  | digit :: rest =>
      if word * 10 + digit < wordLimit then fillWord (word * 10 + digit) rest
      else (word, digit :: rest)

def powerOfTen (exponent : Nat) : Float :=
  Float.ofScientific 1 false exponent

/-- Scales by powers of ten that a double holds. The steps bound the divisions by `10 ^ 308`. -/
def scaleDown : Nat → Float → Nat → Float
  | 0, value, _ => value
  | steps + 1, value, exponent =>
      if exponent ≤ 308 then value / powerOfTen exponent
      else if value == 0.0 then value
      else scaleDown steps (value / powerOfTen 308) (exponent - 308)

/-- `word · 10 ^ exponent` as a double, or nothing where it is too large. -/
def scaled? (word : Nat) (exponent : Int) : Option Float :=
  let value := (UInt64.ofNat word).toFloat
  if exponent < 0 then some (scaleDown 8 value (-exponent).toNat)
  else if exponent.toNat ≤ 308 then
    let product := value * powerOfTen exponent.toNat
    if product.isInf then none else some product
  else if value == 0.0 then some value
  else none

def digitsValue (digits : List Nat) : Nat :=
  digits.foldl (fun value digit => value * 10 + digit) 0

/-- The exponent's limit; a larger one makes the number zero or too large. -/
def exponentLimit : Nat := Decimal.twoTo 31

/-- The magnitude of a number that is written with a point, an exponent or too many digits. -/
def Numeral.magnitude? (numeral : Numeral) : Option Float :=
  let (word, overflow) := fillWord 0 numeral.whole
  let (word, left) := fillWord word numeral.fraction
  let place := Int.ofNat overflow.length - Int.ofNat (numeral.fraction.length - left.length)
  match numeral.exponent with
  | none => scaled? word place
  | some (below, digits) =>
      let size := digitsValue digits
      if size < exponentLimit then
        scaled? word (if below then place - Int.ofNat size else place + Int.ofNat size)
      else if word = 0 ∨ below then some 0.0
      else none

def Numeral.value (numeral : Numeral) : NumberValue :=
  let magnitude := digitsValue numeral.whole
  let isWhole := numeral.fraction.isEmpty && numeral.exponent.isNone
  if isWhole && !numeral.negative && magnitude < wordLimit then .natural magnitude
  else if isWhole && numeral.negative && 0 < magnitude && magnitude ≤ Decimal.twoTo 63 then
    .negative magnitude
  else
    match numeral.magnitude? with
    | none => .tooLarge
    | some real => .real (if numeral.negative then -real else real)

end AppBundle.Json
