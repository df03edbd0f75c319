/-
**SHA-256.**

The digest is computed over the message bytes padded to blocks of 64: a one bit, zeros, and the
length in bits. Each block is mixed into eight words by 64 rounds.
-/

namespace Phrasebook.Sha256

/-- The round constants. -/
def constants : List UInt32 := [
  0x428a2f98, 0x71374491, 0xb5c0fbcf, 0xe9b5dba5, 0x3956c25b, 0x59f111f1, 0x923f82a4, 0xab1c5ed5,
  0xd807aa98, 0x12835b01, 0x243185be, 0x550c7dc3, 0x72be5d74, 0x80deb1fe, 0x9bdc06a7, 0xc19bf174,
  0xe49b69c1, 0xefbe4786, 0x0fc19dc6, 0x240ca1cc, 0x2de92c6f, 0x4a7484aa, 0x5cb0a9dc, 0x76f988da,
  0x983e5152, 0xa831c66d, 0xb00327c8, 0xbf597fc7, 0xc6e00bf3, 0xd5a79147, 0x06ca6351, 0x14292967,
  0x27b70a85, 0x2e1b2138, 0x4d2c6dfc, 0x53380d13, 0x650a7354, 0x766a0abb, 0x81c2c92e, 0x92722c85,
  0xa2bfe8a1, 0xa81a664b, 0xc24b8b70, 0xc76c51a3, 0xd192e819, 0xd6990624, 0xf40e3585, 0x106aa070,
  0x19a4c116, 0x1e376c08, 0x2748774c, 0x34b0bcb5, 0x391c0cb3, 0x4ed8aa4a, 0x5b9cca4f, 0x682e6ff3,
  0x748f82ee, 0x78a5636f, 0x84c87814, 0x8cc70208, 0x90befffa, 0xa4506ceb, 0xbef9a3f7, 0xc67178f2]

/-- The eight words that blocks are mixed into. -/
structure State where
  a : UInt32
  b : UInt32
  c : UInt32
  d : UInt32
  e : UInt32
  f : UInt32
  g : UInt32
  h : UInt32

namespace State

/-- The words before the first block. -/
def initial : State :=
  ⟨0x6a09e667, 0xbb67ae85, 0x3c6ef372, 0xa54ff53a, 0x510e527f, 0x9b05688c, 0x1f83d9ab, 0x5be0cd19⟩

/-- The words, in order. -/
def words (state : State) : List UInt32 :=
  [state.a, state.b, state.c, state.d, state.e, state.f, state.g, state.h]

/-- The words of two states added up. -/
def add (first second : State) : State :=
  ⟨first.a + second.a, first.b + second.b, first.c + second.c, first.d + second.d,
    first.e + second.e, first.f + second.f, first.g + second.g, first.h + second.h⟩

end State

/-- A word turned to the right. -/
def rotate (word : UInt32) (places : UInt32) : UInt32 :=
  (word >>> places) ||| (word <<< (32 - places))

/-- The part of a schedule word that comes from the word fifteen places earlier. -/
def smallSigma0 (word : UInt32) : UInt32 := rotate word 7 ^^^ rotate word 18 ^^^ (word >>> 3)

/-- The part of a schedule word that comes from the word two places earlier. -/
def smallSigma1 (word : UInt32) : UInt32 := rotate word 17 ^^^ rotate word 19 ^^^ (word >>> 10)

/-- One round, with the sum of its schedule word and its constant. -/
def round (state : State) (input : UInt32) : State :=
  let sum1 := rotate state.e 6 ^^^ rotate state.e 11 ^^^ rotate state.e 25
  let choice := (state.e &&& state.f) ^^^ (~~~state.e &&& state.g)
  let first := state.h + sum1 + choice + input
  let sum0 := rotate state.a 2 ^^^ rotate state.a 13 ^^^ rotate state.a 22
  let majority := (state.a &&& state.b) ^^^ (state.a &&& state.c) ^^^ (state.b &&& state.c)
  ⟨first + (sum0 + majority), state.a, state.b, state.c, state.d + first, state.e, state.f, state.g⟩

/-- The rounds with the given constants; the window holds the next sixteen schedule words. -/
def rounds : List UInt32 → List UInt32 → State → State
  | [], _, state => state
  | constant :: constants, window, state =>
    match window with
    | [] => state
    | word :: later =>
      let next := word + smallSigma0 (later.getD 0 0) + later.getD 8 0 +
        smallSigma1 (later.getD 13 0)
      rounds constants (later ++ [next]) (round state (constant + word))

/-- The state with a block of sixteen words mixed in. -/
def compress (state : State) (block : List UInt32) : State :=
  state.add (rounds constants block state)

/-! ### Bytes and words -/

/-- The words of bytes, four bytes each, the first byte highest. -/
def wordsOf : List UInt8 → List UInt32
  | first :: second :: third :: fourth :: rest =>
    (first.toUInt32 <<< 24 ||| second.toUInt32 <<< 16 ||| third.toUInt32 <<< 8 |||
      fourth.toUInt32) :: wordsOf rest
  | _ => []

/-- The bytes of a number below `256 ^ count`, the highest first. -/
def bytesOf (value : Nat) : Nat → List UInt8
  | 0 => []
  | count + 1 => UInt8.ofNat (value / Nat.pow 256 count % 256) :: bytesOf value count

/-- The padding behind a message of `length` bytes. -/
def padding (length : Nat) : List UInt8 :=
  0x80 :: (List.replicate ((119 - length % 64) % 64) 0 ++ bytesOf (length * 8) 8)

/-- The state after all the blocks of the words, at most `fuel` many. -/
def compressAll : Nat → State → List UInt32 → State
  | 0, state, _ => state
  | _, state, [] => state
  | fuel + 1, state, words => compressAll fuel (compress state (words.take 16)) (words.drop 16)

/-- The digest of a message, as eight words. -/
def digest (message : List UInt8) : List UInt32 :=
  let words := wordsOf (message ++ padding message.length)
  (compressAll words.length .initial words).words

/-- A word in eight hexadecimal digits. -/
def hexWord (word : UInt32) : List Char :=
  ([28, 24, 20, 16, 12, 8, 4, 0] : List UInt32).map fun shift =>
    Nat.digitChar ((word >>> shift) &&& 15).toNat

/-- The digest of a message in hexadecimal digits. -/
def hex (message : ByteArray) : String := String.ofList ((digest message.toList).flatMap hexWord)

end Phrasebook.Sha256
