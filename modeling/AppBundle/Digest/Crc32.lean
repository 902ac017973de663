namespace AppBundle.Digest

/-!
The CRC-32 checksum of bytes: the remainder of a division of polynomials whose coefficients are
bits, the lowest bit of each byte first.
-/

/-- The divisor without its leading coefficient, lowest bit first. -/
def divisor : UInt32 := 0xEDB88320

/-- Divides some bits, at the low end of a remainder, out of it. -/
def divideBits : Nat → UInt32 → UInt32
  | 0, remainder => remainder
  | count + 1, remainder =>
      divideBits count
        (if remainder &&& 1 = 1 then (remainder >>> 1) ^^^ divisor else remainder >>> 1)

def addByte (remainder : UInt32) (byte : UInt8) : UInt32 :=
  divideBits 8 (remainder ^^^ byte.toUInt32)

def crc32 (bytes : List UInt8) : Nat :=
  (bytes.foldl addByte 0xFFFFFFFF ^^^ 0xFFFFFFFF).toNat

end AppBundle.Digest
