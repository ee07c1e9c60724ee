/-!
# UTF-8

`Utf8.decode?` reads bytes as a text and refuses bytes that are none; `Utf8.decodeLeading` stops
there. `Utf8.decodeLossy` puts the replacement character in the place of each longest run of bytes
that could begin a character but does not complete one, and of each other byte that begins none.

A character of several bytes is known by its first byte, which fixes the number of the following
ones and the range of the second; the others lie between 0x80 and 0xBF.
-/

namespace FeatureFlags.Utf8

/-- What a first byte says: the bits that it holds, the range of the second byte, and the number of
bytes after the second one. -/
structure Lead where
  bits : Nat
  low : UInt8
  high : UInt8
  more : Nat

/-- What the first byte of several says. -/
def lead? (b : UInt8) : Option Lead :=
  let n := b.toNat
  if 0xC2 ≤ n ∧ n ≤ 0xDF then some ⟨n - 0xC0, 0x80, 0xBF, 0⟩
  else if n = 0xE0 then some ⟨0, 0xA0, 0xBF, 1⟩
  else if n = 0xED then some ⟨0xD, 0x80, 0x9F, 1⟩
  else if 0xE1 ≤ n ∧ n ≤ 0xEF then some ⟨n - 0xE0, 0x80, 0xBF, 1⟩
  else if n = 0xF0 then some ⟨0, 0x90, 0xBF, 2⟩
  else if 0xF1 ≤ n ∧ n ≤ 0xF3 then some ⟨n - 0xF0, 0x80, 0xBF, 2⟩
  else if n = 0xF4 then some ⟨4, 0x80, 0x8F, 2⟩
  else none

/-- Whether a byte is in the range of all bytes but the first two. -/
def isContinuation (b : UInt8) : Bool := 0x80 ≤ b && b ≤ 0xBF

/-- What stands at the start of some bytes. -/
inductive Step where
  /-- A character of so many bytes. -/
  | char (c : Char) (length : Nat)
  /-- So many bytes that make no character. -/
  | bad (length : Nat)

/-- The code point that a number of bits and following bytes make. -/
def codePoint (bits : Nat) (following : List UInt8) : Char :=
  Char.ofNat (following.foldl (fun n b => 64 * n + (b.toNat - 0x80)) bits)

/-- What stands at the start of the bytes `b :: rest`. -/
def step (b : UInt8) (rest : List UInt8) : Step :=
  if b < 0x80 then .char (Char.ofNat b.toNat) 1
  else
    match lead? b with
    | none => .bad 1
    | some l =>
      match rest with
      | [] => .bad 1
      | second :: rest =>
        if second < l.low ∨ l.high < second then .bad 1
        else
          let others := (rest.take l.more).takeWhile isContinuation
          if others.length = l.more then .char (codePoint l.bits (second :: others)) (2 + l.more)
          else .bad (2 + others.length)

/-- The characters of bytes, with `bad` in the place of what is none; stops where `bad` is `none`.
Each step takes a unit of fuel. -/
def decodeChars (bad : Option Char) : Nat → List UInt8 → Option (List Char)
  | 0, _ => some []
  | _ + 1, [] => some []
  | fuel + 1, b :: rest =>
    match step b rest with
    | .char c length => (decodeChars bad fuel (rest.drop (length - 1))).map (c :: ·)
    | .bad length =>
      match bad with
      | none => none
      | some c => (decodeChars bad fuel (rest.drop (length - 1))).map (c :: ·)

/-- The text of some bytes, if they are one. -/
def decode? (bytes : List UInt8) : Option String :=
  (decodeChars none bytes.length bytes).map String.ofList

/-- The text of some bytes, with replacement characters for what is none. -/
def decodeLossy (bytes : List UInt8) : String :=
  String.ofList ((decodeChars (some '\ufffd') bytes.length bytes).getD [])

/-- The characters up to the first bytes that are none, and whether those are all. Each step takes a
unit of fuel. -/
def leadingChars : Nat → List UInt8 → List Char × Bool
  | 0, _ => ([], true)
  | _ + 1, [] => ([], true)
  | fuel + 1, b :: rest =>
    match step b rest with
    | .char c length =>
      let (cs, complete) := leadingChars fuel (rest.drop (length - 1))
      (c :: cs, complete)
    | .bad _ => ([], false)

/-- The longest text that some bytes begin with, and whether it is all of them. -/
def decodeLeading (bytes : List UInt8) : String × Bool :=
  let (cs, complete) := leadingChars bytes.length bytes
  (String.ofList cs, complete)

/-- The bytes of a text. -/
def encode (s : String) : List UInt8 := s.toUTF8.toList

end FeatureFlags.Utf8
