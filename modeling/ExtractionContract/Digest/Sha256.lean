import ExtractionContract.Decimal.Power

/-!
# SHA-256

The digest of a list of bytes. The message is padded to whole blocks of sixty-four bytes, and
each block is folded into a state of eight words in sixty-four rounds.

* `Sha256.pad`, `length_pad`: the padding, and that it fills whole blocks.
* `Sha256.digest`, `Sha256.hex`: the eight words of the digest, and their text.
-/

namespace ExtractionContract

namespace Sha256

/-- The words that the rounds of a block add, one each. -/
def roundConstants : List UInt32 := [
  0x428A2F98, 0x71374491, 0xB5C0FBCF, 0xE9B5DBA5, 0x3956C25B, 0x59F111F1, 0x923F82A4, 0xAB1C5ED5,
  0xD807AA98, 0x12835B01, 0x243185BE, 0x550C7DC3, 0x72BE5D74, 0x80DEB1FE, 0x9BDC06A7, 0xC19BF174,
  0xE49B69C1, 0xEFBE4786, 0x0FC19DC6, 0x240CA1CC, 0x2DE92C6F, 0x4A7484AA, 0x5CB0A9DC, 0x76F988DA,
  0x983E5152, 0xA831C66D, 0xB00327C8, 0xBF597FC7, 0xC6E00BF3, 0xD5A79147, 0x06CA6351, 0x14292967,
  0x27B70A85, 0x2E1B2138, 0x4D2C6DFC, 0x53380D13, 0x650A7354, 0x766A0ABB, 0x81C2C92E, 0x92722C85,
  0xA2BFE8A1, 0xA81A664B, 0xC24B8B70, 0xC76C51A3, 0xD192E819, 0xD6990624, 0xF40E3585, 0x106AA070,
  0x19A4C116, 0x1E376C08, 0x2748774C, 0x34B0BCB5, 0x391C0CB3, 0x4ED8AA4A, 0x5B9CCA4F, 0x682E6FF3,
  0x748F82EE, 0x78A5636F, 0x84C87814, 0x8CC70208, 0x90BEFFFA, 0xA4506CEB, 0xBEF9A3F7, 0xC67178F2]

/-- The state between blocks. -/
structure State where
  a : UInt32
  b : UInt32
  c : UInt32
  d : UInt32
  e : UInt32
  f : UInt32
  g : UInt32
  h : UInt32
deriving DecidableEq

/-- The state before the first block. -/
def initial : State :=
  ⟨0x6A09E667, 0xBB67AE85, 0x3C6EF372, 0xA54FF53A,
   0x510E527F, 0x9B05688C, 0x1F83D9AB, 0x5BE0CD19⟩

/-- A word rotated right. -/
def rotate (x : UInt32) (n : UInt32) : UInt32 :=
  (x >>> n) ||| (x <<< (32 - n))

/-! ### Padding -/

/-- The number of zero bytes between the mark after the message and its length. -/
def zeroCount (size : Nat) : Nat :=
  (119 - size % 64) % 64

/-- A number as eight bytes, the highest first. -/
def lengthBytes (n : Nat) : List UInt8 :=
  [n >>> 56, n >>> 48, n >>> 40, n >>> 32, n >>> 24, n >>> 16, n >>> 8, n].map UInt8.ofNat

/-- The message, a mark, zeros, and the number of bits of the message. -/
def pad (message : List UInt8) : List UInt8 :=
  message ++ 0x80 :: List.replicate (zeroCount message.length) 0 ++
    lengthBytes (8 * message.length)

/-- **Padding fills whole blocks.** -/
theorem length_pad (message : List UInt8) : (pad message).length % 64 = 0 := by
  simp only [pad, lengthBytes, zeroCount, List.length_append, List.length_cons,
    List.length_replicate, List.length_map, List.length_nil]
  omega

/-! ### Rounds -/

/-- Bytes as words, the highest byte first. Bytes that fill no word are left out. -/
def words : List UInt8 → List UInt32
  | b₀ :: b₁ :: b₂ :: b₃ :: rest =>
    ((b₀.toUInt32 <<< 24) ||| (b₁.toUInt32 <<< 16) ||| (b₂.toUInt32 <<< 8) ||| b₃.toUInt32) ::
      words rest
  | _ => []

/-- The word sixteen rounds after the first of the last sixteen words. -/
def nextWord (window : List UInt32) : UInt32 :=
  let w₀ := window.getD 0 0
  let w₁ := window.getD 1 0
  let w₉ := window.getD 9 0
  let w₁₄ := window.getD 14 0
  let s₀ := rotate w₁ 7 ^^^ rotate w₁ 18 ^^^ (w₁ >>> 3)
  let s₁ := rotate w₁₄ 17 ^^^ rotate w₁₄ 19 ^^^ (w₁₄ >>> 10)
  w₀ + s₀ + w₉ + s₁

/-- One round, with its constant and its word of the message. -/
def round (s : State) (k w : UInt32) : State :=
  let s₁ := rotate s.e 6 ^^^ rotate s.e 11 ^^^ rotate s.e 25
  let choice := (s.e &&& s.f) ^^^ (~~~s.e &&& s.g)
  let t₁ := s.h + s₁ + choice + k + w
  let s₀ := rotate s.a 2 ^^^ rotate s.a 13 ^^^ rotate s.a 22
  let majority := (s.a &&& s.b) ^^^ (s.a &&& s.c) ^^^ (s.b &&& s.c)
  let t₂ := s₀ + majority
  ⟨t₁ + t₂, s.a, s.b, s.c, s.d + t₁, s.e, s.f, s.g⟩

/-- The rounds of a block, with the last sixteen words. -/
def rounds (s : State) (window : List UInt32) : List UInt32 → State
  | [] => s
  | k :: ks => rounds (round s k (window.getD 0 0)) (window.drop 1 ++ [nextWord window]) ks

/-- Folds a block of sixteen words into the state. -/
def absorb (s : State) (block : List UInt32) : State :=
  let t := rounds s block roundConstants
  ⟨s.a + t.a, s.b + t.b, s.c + t.c, s.d + t.d, s.e + t.e, s.f + t.f, s.g + t.g, s.h + t.h⟩

/-- Folds a number of blocks into the state, one after the other. -/
def absorbAll (s : State) (ws : List UInt32) : Nat → State
  | 0 => s
  | n + 1 => absorbAll (absorb s (ws.take 16)) (ws.drop 16) n

/-- The digest of a message. -/
def digest (message : List UInt8) : State :=
  let ws := words (pad message)
  absorbAll initial ws (ws.length / 16)

/-! ### Text -/

/-- A word as eight hexadecimal digits in lower case. -/
def wordHex (w : UInt32) : List Char :=
  [28, 24, 20, 16, 12, 8, 4, 0].map fun shift => Nat.digitChar (w.toNat / twoTo shift % 16)

/-- The digest of a message as sixty-four hexadecimal digits in lower case. -/
def hex (message : List UInt8) : String :=
  let s := digest message
  String.ofList ([s.a, s.b, s.c, s.d, s.e, s.f, s.g, s.h].flatMap wordHex)

example : (digest []).a = 0xE3B0C442 := by decide +kernel

end Sha256

end ExtractionContract
