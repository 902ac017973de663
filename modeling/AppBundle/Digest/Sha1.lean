namespace AppBundle.Digest

/-!
The SHA-1 digest of bytes, as forty hexadecimal digits. A message is padded to whole blocks of
sixteen words; each block is stretched to eighty words, which stir the state in turn.
-/

abbrev Word := UInt32

/-- Moves the bits of a word up; those that fall out come in below. -/
def rotate (count : Word) (word : Word) : Word :=
  (word <<< count) ||| (word >>> (32 - count))

structure State where
  a : Word
  b : Word
  c : Word
  d : Word
  e : Word

namespace State

def initial : State :=
  ⟨0x67452301, 0xEFCDAB89, 0x98BADCFE, 0x10325476, 0xC3D2E1F0⟩

def add (left right : State) : State :=
  ⟨left.a + right.a, left.b + right.b, left.c + right.c, left.d + right.d, left.e + right.e⟩

/-- How a round mixes three words of the state, and its constant. -/
def mix (round : Nat) (state : State) : Word × Word :=
  let ⟨_, b, c, d, _⟩ := state
  if round < 20 then ((b &&& c) ||| (~~~b &&& d), 0x5A827999)
  else if round < 40 then (b ^^^ c ^^^ d, 0x6ED9EBA1)
  else if round < 60 then ((b &&& c) ||| (b &&& d) ||| (c &&& d), 0x8F1BBCDC)
  else (b ^^^ c ^^^ d, 0xCA62C1D6)

/-- One round with its word of the schedule. -/
def step (state : State) (word : Word) (round : Nat) : State :=
  let (mixed, constant) := state.mix round
  ⟨rotate 5 state.a + mixed + state.e + constant + word, state.a, rotate 30 state.b, state.c,
    state.d⟩

end State

/-- Stretches a schedule, which has its latest word first, by some words. -/
def stretch : Nat → List Word → List Word
  | 0, schedule => schedule
  | count + 1, schedule =>
      let word (back : Nat) := schedule.getD (back - 1) 0
      stretch count (rotate 1 (word 3 ^^^ word 8 ^^^ word 14 ^^^ word 16) :: schedule)

def schedule (block : List Word) : List Word :=
  (stretch 64 block.reverse).reverse

def compress (state : State) (block : List Word) : State :=
  state.add ((schedule block).zipIdx.foldl (fun stirred (word, round) => stirred.step word round) state)

/-- Number of zero bytes between the end mark and the length of a message. -/
def paddingSize (size : Nat) : Nat :=
  (119 - size % 64) % 64

def lengthBytes (size : Nat) : List UInt8 :=
  (List.range 8).map fun place => UInt8.ofNat (8 * size / Nat.pow 256 (7 - place))

/-- A message with its end mark, zeros and length. -/
def padded (message : List UInt8) : List UInt8 :=
  message ++ 0x80 :: (List.replicate (paddingSize message.length) 0 ++ lengthBytes message.length)

theorem padded_length (message : List UInt8) : (padded message).length % 64 = 0 := by
  simp only [padded, lengthBytes, paddingSize, List.length_append, List.length_cons,
    List.length_replicate, List.length_map, List.length_range]
  omega

def wordsOf : List UInt8 → List Word
  | first :: second :: third :: fourth :: rest =>
      (first.toUInt32 <<< 24 ||| second.toUInt32 <<< 16 ||| third.toUInt32 <<< 8 |||
        fourth.toUInt32) :: wordsOf rest
  | _ => []

/-- Compresses the blocks of some words, at most `count`. -/
def compressAll : Nat → State → List Word → State
  | 0, state, _ => state
  | count + 1, state, words =>
      compressAll count (compress state (words.take 16)) (words.drop 16)

def hexDigits (word : Word) : List Char :=
  let digits := Nat.toDigits 16 word.toNat
  List.replicate (8 - digits.length) '0' ++ digits

def sha1 (content : ByteArray) : String :=
  let words := wordsOf (padded content.toList)
  let ⟨a, b, c, d, e⟩ := compressAll (words.length / 16) .initial words
  String.ofList ([a, b, c, d, e].flatMap hexDigits)

end AppBundle.Digest
