-- SHA-256 digests of bodies. A message is padded to blocks of 64 bytes, and each block stirs the
-- state in 64 rounds. The words of the message schedule are never stored: a window of 16 words
-- slides over them, one word a round.
import CauseLists.Text.Numeral
import CauseLists.Text.Utf8

namespace CauseLists

namespace Sha256

/-- The eight words that a message is stirred into. -/
structure State where
  a : UInt32
  b : UInt32
  c : UInt32
  d : UInt32
  e : UInt32
  f : UInt32
  g : UInt32
  h : UInt32
deriving DecidableEq, Repr, Inhabited

/-- The first 32 bits of the fractional parts of the square roots of the first eight primes. -/
def start : State :=
  ⟨0x6a09e667, 0xbb67ae85, 0x3c6ef372, 0xa54ff53a, 0x510e527f, 0x9b05688c, 0x1f83d9ab, 0x5be0cd19⟩

/-- The first 32 bits of the fractional parts of the cube roots of the first 64 primes. -/
def roundConstants : List UInt32 := [
  0x428a2f98, 0x71374491, 0xb5c0fbcf, 0xe9b5dba5, 0x3956c25b, 0x59f111f1, 0x923f82a4, 0xab1c5ed5,
  0xd807aa98, 0x12835b01, 0x243185be, 0x550c7dc3, 0x72be5d74, 0x80deb1fe, 0x9bdc06a7, 0xc19bf174,
  0xe49b69c1, 0xefbe4786, 0x0fc19dc6, 0x240ca1cc, 0x2de92c6f, 0x4a7484aa, 0x5cb0a9dc, 0x76f988da,
  0x983e5152, 0xa831c66d, 0xb00327c8, 0xbf597fc7, 0xc6e00bf3, 0xd5a79147, 0x06ca6351, 0x14292967,
  0x27b70a85, 0x2e1b2138, 0x4d2c6dfc, 0x53380d13, 0x650a7354, 0x766a0abb, 0x81c2c92e, 0x92722c85,
  0xa2bfe8a1, 0xa81a664b, 0xc24b8b70, 0xc76c51a3, 0xd192e819, 0xd6990624, 0xf40e3585, 0x106aa070,
  0x19a4c116, 0x1e376c08, 0x2748774c, 0x34b0bcb5, 0x391c0cb3, 0x4ed8aa4a, 0x5b9cca4f, 0x682e6ff3,
  0x748f82ee, 0x78a5636f, 0x84c87814, 0x8cc70208, 0x90befffa, 0xa4506ceb, 0xbef9a3f7, 0xc67178f2]

def rotateRight (x : UInt32) (n : UInt32) : UInt32 := (x >>> n) ||| (x <<< (32 - n))

/-- The word that enters the window when its first word leaves. -/
def nextWord (window : List UInt32) : UInt32 :=
  let word (i : Nat) : UInt32 := window.getD i 0
  let near := rotateRight (word 1) 7 ^^^ rotateRight (word 1) 18 ^^^ (word 1 >>> 3)
  let far := rotateRight (word 14) 17 ^^^ rotateRight (word 14) 19 ^^^ (word 14 >>> 10)
  word 0 + near + word 9 + far

/-- One round with a constant and a word of the message schedule. -/
def round (s : State) (k w : UInt32) : State :=
  let high := rotateRight s.e 6 ^^^ rotateRight s.e 11 ^^^ rotateRight s.e 25
  let choice := (s.e &&& s.f) ^^^ (~~~s.e &&& s.g)
  let t := s.h + high + choice + k + w
  let low := rotateRight s.a 2 ^^^ rotateRight s.a 13 ^^^ rotateRight s.a 22
  let majority := (s.a &&& s.b) ^^^ (s.a &&& s.c) ^^^ (s.b &&& s.c)
  ⟨t + low + majority, s.a, s.b, s.c, s.d + t, s.e, s.f, s.g⟩

/-- The rounds of one block, from the window of its sixteen words. -/
def rounds : (constants : List UInt32) → (window : List UInt32) → State → State
  | [], _, s => s
  | k :: ks, window, s =>
    rounds ks (window.drop 1 ++ [nextWord window]) (round s k (window.headD 0))

/-- The state after one block. -/
def compress (s : State) (window : List UInt32) : State :=
  let t := rounds roundConstants window s
  ⟨s.a + t.a, s.b + t.b, s.c + t.c, s.d + t.d, s.e + t.e, s.f + t.f, s.g + t.g, s.h + t.h⟩

/-- The `count` low bytes of a number, most significant first. -/
def bigEndian (count n : Nat) : Bytes :=
  (List.range count).reverse.map (fun i => UInt8.ofNat (n / Nat.pow 256 i % 256))

/-- A message with one bit set after it, zeros, and its length in bits at the end of the last
block. -/
def padded (message : Bytes) : Bytes :=
  let zeros := (119 - message.length % 64) % 64
  message ++ 0x80 :: List.replicate zeros 0 ++ bigEndian 8 (8 * message.length)

/-- Bytes as words, four to a word. -/
def words : Bytes → List UInt32
  | a :: b :: c :: d :: rest =>
    (a.toUInt32 <<< 24 ||| b.toUInt32 <<< 16 ||| c.toUInt32 <<< 8 ||| d.toUInt32) :: words rest
  | _ => []

/-- The state after all blocks of a row of words; `blocks` is their number. -/
def absorb : (blocks : Nat) → List UInt32 → State → State
  | 0, _, s => s
  | blocks + 1, ws, s => absorb blocks (ws.drop 16) (compress s (ws.take 16))

/-- The words of a state in order. -/
def State.words (s : State) : List UInt32 := [s.a, s.b, s.c, s.d, s.e, s.f, s.g, s.h]

/-- The digest of a message: 32 bytes. -/
def hash (message : Bytes) : Bytes :=
  let ws := words (padded message)
  (absorb (ws.length / 16) ws start).words.flatMap (fun w => bigEndian 4 w.toNat)

end Sha256

/-- The digest of a body. -/
structure Digest where
  bytes : Bytes
deriving DecidableEq, Repr, Inhabited

namespace Digest

/-- The digest of a body, byte for byte as it was received. -/
def ofBody (body : Bytes) : Digest := ⟨Sha256.hash body⟩

/-- The digest in hexadecimal digits. -/
def hex (d : Digest) : String :=
  String.ofList (d.bytes.flatMap (fun b => Text.hexDigits 2 b.toNat))

/-- The digest with the name of its algorithm. -/
def text (d : Digest) : String := "sha256:" ++ d.hex

end Digest

end CauseLists
