/-!
# MurmurHash3

The 32-bit variant of MurmurHash3: four bytes at a time are mixed into the hash, the lowest byte
of each word first, then the one to three bytes that are left, then the length.
-/

namespace FeatureFlags.Murmur3

/-- A word turned left by `n` bits, for `n` from 1 to 31. -/
def rotateLeft (x n : UInt32) : UInt32 := (x <<< n) ||| (x >>> (32 - n))

/-- Scrambles a word of the message. -/
def scramble (k : UInt32) : UInt32 := rotateLeft (k * 0xcc9e2d51) 15 * 0x1b873593

/-- The number that bytes spell, the lowest first. -/
def littleEndian (bytes : List UInt8) : UInt32 :=
  bytes.foldr (fun b x => (x <<< 8) ||| b.toUInt32) 0

/-- Mixes bytes into the hash. -/
def mix (h : UInt32) : List UInt8 → UInt32
  | a :: b :: c :: d :: rest =>
    mix (rotateLeft (h ^^^ scramble (littleEndian [a, b, c, d])) 13 * 5 + 0xe6546b64) rest
  | [] => h
  | left => h ^^^ scramble (littleEndian left)

/-- Spreads the bits of the hash over the whole word. -/
def finish (h : UInt32) : UInt32 :=
  let h := (h ^^^ (h >>> 16)) * 0x85ebca6b
  let h := (h ^^^ (h >>> 13)) * 0xc2b2ae35
  h ^^^ (h >>> 16)

/-- The hash of a message. -/
def hash (seed : UInt32) (message : List UInt8) : UInt32 :=
  finish (mix seed message ^^^ UInt32.ofNat message.length)

end FeatureFlags.Murmur3
