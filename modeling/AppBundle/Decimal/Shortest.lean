namespace AppBundle.Decimal

/-!
The fewest decimal digits that still name one binary floating-point number: of all decimals that
round to it, those with the fewest digits, and of these the nearest; halfway between two of them the
one whose last digit is even. The search is exact: it works on whole multiples of a quarter unit in
the last place.
-/

def twoTo (exponent : Nat) : Nat := Nat.pow 2 exponent

def tenTo (exponent : Nat) : Nat := Nat.pow 10 exponent

/-- A positive number `numerator / denominator` and the ends of the interval that rounds to it. -/
structure Rounding where
  numerator : Nat
  lower : Nat
  upper : Nat
  denominator : Nat
  closed : Bool

/-- The interval of a finite positive number, from its mantissa and binary exponent. -/
def Rounding.ofParts (mantissa : Nat) (exponent : Int) (narrowBelow : Bool) : Rounding :=
  let center := 4 * mantissa
  let below := if narrowBelow then center - 1 else center - 2
  let scale := exponent - 2
  let up := twoTo scale.toNat
  { numerator := center * up
    lower := below * up
    upper := (center + 2) * up
    denominator := twoTo (-scale).toNat
    closed := mantissa % 2 == 0 }

/-- Mantissa, exponent and the width below of a finite double that is not zero. -/
def Rounding.ofBits (bits : Nat) : Rounding :=
  let fraction := bits % twoTo 52
  let biased := bits / twoTo 52 % twoTo 11
  if biased = 0 then .ofParts fraction (-1074) false
  else .ofParts (fraction + twoTo 52) (Int.ofNat biased - 1075) (fraction == 0 && biased > 1)

/-- Whether `count · 10 ^ place` lies in the interval. -/
def Rounding.holds (interval : Rounding) (count : Nat) (place : Int) : Bool :=
  let value := count * tenTo place.toNat * interval.denominator
  let unit := tenTo (-place).toNat
  if interval.closed then
    interval.lower * unit ≤ value && value ≤ interval.upper * unit
  else
    interval.lower * unit < value && value < interval.upper * unit

/-- The count of steps `10 ^ place` just below the number. -/
def Rounding.floor (interval : Rounding) (place : Int) : Nat :=
  interval.numerator * tenTo (-place).toNat / (interval.denominator * tenTo place.toNat)

/-- Whether the count above `below` is nearer to the number than `below` is; halfway between them
the even one counts as nearer. -/
def Rounding.prefersAbove (interval : Rounding) (place : Int) (below : Nat) : Bool :=
  let number := 2 * interval.numerator * tenTo (-place).toNat
  let middle := (2 * below + 1) * interval.denominator * tenTo place.toNat
  middle < number || (middle == number && below % 2 == 1)

/-- The digits on one grid that round to the number, if the grid has such. -/
def Rounding.onGrid? (interval : Rounding) (place : Int) : Option Nat :=
  let below := interval.floor place
  match interval.holds below place && below > 0, interval.holds (below + 1) place with
  | true, true => some (if interval.prefersAbove place below then below + 1 else below)
  | true, false => some below
  | false, true => some (below + 1)
  | false, false => none

/-- The first grid from the coarse end that holds such digits. -/
def Rounding.search (interval : Rounding) : Nat → Int → Nat × Int
  | 0, place => (interval.floor place, place)
  | tries + 1, place =>
      match interval.onGrid? place with
      | some digits => (digits, place)
      | none => interval.search tries (place - 1)

def Rounding.shortest (interval : Rounding) : Nat × Int :=
  let size := Int.ofNat (Nat.toDigits 10 (interval.numerator / interval.denominator)).length
  let guess : Int :=
    if interval.numerator < interval.denominator then
      1 - Int.ofNat (Nat.toDigits 10 (interval.denominator / interval.numerator)).length
    else size
  interval.search 30 (guess + 1)

/-- Where digits are written in full and where with an exponent. -/
structure Layout where
  /-- Least exponent of the first digit that is written without an exponent. -/
  least : Int
  /-- First exponent of the first digit that is written with an exponent again. -/
  limit : Int

/-- `0.00001` and `1000000000000000.0` are written in full; beyond them stands an exponent with
its sign. -/
def Layout.standard : Layout := ⟨-5, 16⟩

def zeros (count : Nat) : List Char :=
  List.replicate count '0'

/-- `digits · 10 ^ place`, where `digits` does not end in a zero. -/
def Layout.write (layout : Layout) (digits : List Char) (place : Int) : List Char :=
  let exponent := place + Int.ofNat digits.length - 1
  if layout.least ≤ exponent ∧ exponent < layout.limit then
    if 0 ≤ place then digits ++ zeros place.toNat ++ ['.', '0']
    else if 0 ≤ exponent then
      let whole := exponent.toNat + 1
      digits.take whole ++ '.' :: digits.drop whole
    else '0' :: '.' :: (zeros (-exponent - 1).toNat ++ digits)
  else
    let mantissa :=
      match digits with
      | [] => []
      | [digit] => [digit]
      | digit :: rest => digit :: '.' :: rest
    mantissa ++ 'e' :: (if exponent < 0 then '-' else '+') :: Nat.toDigits 10 exponent.natAbs

/-- Moves the zeros at the end of a count into the power of ten. -/
def stripZeros : Nat → Nat → Int → Nat × Int
  | 0, count, place => (count, place)
  | fuel + 1, count, place =>
      if count % 10 = 0 then stripZeros fuel (count / 10) (place + 1) else (count, place)

def textOf (number : Float) : String :=
  let bits := number.toBits.toNat
  let sign := if bits / twoTo 63 = 1 then "-" else ""
  let magnitude := bits % twoTo 63
  if magnitude = 0 then sign ++ "0.0"
  else
    let (count, place) := (Rounding.ofBits magnitude).shortest
    let (count, place) := stripZeros 30 count place
    sign ++ String.ofList (Layout.standard.write (Nat.toDigits 10 count) place)

end AppBundle.Decimal
