import DatawerxMesh.Go.Text
import Mathlib.Data.Nat.Log

/-!
# Hashes and encodings

`crypto/sha256`, `hash/fnv`, `encoding/hex`, `encoding/base32` and the fixed-precision case of
`strconv.FormatFloat`, as far as names and probabilities are derived with them.
-/

namespace Go

open List

/-- The big-endian words of a byte string whose length is a multiple of four. -/
def words : Str → List (BitVec 32)
  | a :: b :: c :: d :: rest =>
    (a.toBitVec ++ b.toBitVec ++ c.toBitVec ++ d.toBitVec : BitVec 32) :: words rest
  | _ => []

/-- A number in big-endian bytes. -/
def bytes (count n : Nat) : Str :=
  (List.range count).map fun i => UInt8.ofNat (n / 256 ^ (count - 1 - i))

namespace Sha256

/-- Round constants: the fractional parts of the cube roots of the first 64 primes. -/
def roundConstants : List (BitVec 32) :=
  [0x428a2f98, 0x71374491, 0xb5c0fbcf, 0xe9b5dba5, 0x3956c25b, 0x59f111f1,
    0x923f82a4, 0xab1c5ed5, 0xd807aa98, 0x12835b01, 0x243185be, 0x550c7dc3,
    0x72be5d74, 0x80deb1fe, 0x9bdc06a7, 0xc19bf174, 0xe49b69c1, 0xefbe4786,
    0x0fc19dc6, 0x240ca1cc, 0x2de92c6f, 0x4a7484aa, 0x5cb0a9dc, 0x76f988da,
    0x983e5152, 0xa831c66d, 0xb00327c8, 0xbf597fc7, 0xc6e00bf3, 0xd5a79147,
    0x06ca6351, 0x14292967, 0x27b70a85, 0x2e1b2138, 0x4d2c6dfc, 0x53380d13,
    0x650a7354, 0x766a0abb, 0x81c2c92e, 0x92722c85, 0xa2bfe8a1, 0xa81a664b,
    0xc24b8b70, 0xc76c51a3, 0xd192e819, 0xd6990624, 0xf40e3585, 0x106aa070,
    0x19a4c116, 0x1e376c08, 0x2748774c, 0x34b0bcb5, 0x391c0cb3, 0x4ed8aa4a,
    0x5b9cca4f, 0x682e6ff3, 0x748f82ee, 0x78a5636f, 0x84c87814, 0x8cc70208,
    0x90befffa, 0xa4506ceb, 0xbef9a3f7, 0xc67178f2]

/-- Initial state: the fractional parts of the square roots of the first 8 primes. -/
def initialState : List (BitVec 32) :=
  [0x6a09e667, 0xbb67ae85, 0x3c6ef372, 0xa54ff53a, 0x510e527f, 0x9b05688c, 0x1f83d9ab, 0x5be0cd19]

/-- The padded message: a one bit, zeros, and the length in bits. -/
def pad (message : Str) : Str :=
  message ++ 0x80 :: List.replicate ((119 - message.length % 64) % 64) 0 ++
    bytes 8 (8 * message.length)

/-- The next word of a schedule, which is kept with its newest word first. -/
def nextWord (schedule : List (BitVec 32)) : BitVec 32 :=
  let w (back : Nat) : BitVec 32 := schedule.getD (back - 1) 0
  let s0 := (w 15).rotateRight 7 ^^^ (w 15).rotateRight 18 ^^^ w 15 >>> 3
  let s1 := (w 2).rotateRight 17 ^^^ (w 2).rotateRight 19 ^^^ w 2 >>> 10
  w 16 + s0 + w 7 + s1

/-- The message schedule of SHA-256. -/
def schedule (block : List (BitVec 32)) : List (BitVec 32) :=
  ((List.range 48).foldl (fun schedule _ => nextWord schedule :: schedule) block.reverse).reverse

/-- One round of SHA-256. -/
def round (state : List (BitVec 32)) (input : BitVec 32) : List (BitVec 32) :=
  match state with
  | [a, b, c, d, e, f, g, h] =>
    let s1 := e.rotateRight 6 ^^^ e.rotateRight 11 ^^^ e.rotateRight 25
    let choice := (e &&& f) ^^^ (~~~e &&& g)
    let first := h + s1 + choice + input
    let s0 := a.rotateRight 2 ^^^ a.rotateRight 13 ^^^ a.rotateRight 22
    let majority := (a &&& b) ^^^ (a &&& c) ^^^ (b &&& c)
    [first + (s0 + majority), a, b, c, d + first, e, f, g]
  | other => other

/-- One block of SHA-256. -/
def compress (state block : List (BitVec 32)) : List (BitVec 32) :=
  List.zipWith (· + ·) state
    ((List.zipWith (· + ·) roundConstants (schedule block)).foldl round state)

end Sha256

/-- `sha256.Sum256`. -/
def sha256 (message : Str) : Str :=
  let input := words (Sha256.pad message)
  let blocks := (List.range (input.length / 16)).map fun i => (input.drop (16 * i)).take 16
  (blocks.foldl Sha256.compress Sha256.initialState).flatMap fun word => bytes 4 word.toNat

@[simp] theorem length_bytes (count n : Nat) : (bytes count n).length = count := by
  rw [bytes, length_map, length_range]

namespace Sha256

theorem length_round {state : List (BitVec 32)} (eight : state.length = 8) (input : BitVec 32) :
    (round state input).length = 8 := by
  unfold round
  split
  · rfl
  · exact eight

theorem length_compress {state : List (BitVec 32)} (eight : state.length = 8)
    (block : List (BitVec 32)) : (compress state block).length = 8 := by
  have rounds : ∀ inputs : List (BitVec 32), (inputs.foldl round state).length = 8 := fun inputs =>
    List.foldlRecOn inputs round (motive := fun state => state.length = 8) eight
      fun _ eight input _ => length_round eight input
  rw [compress, length_zipWith, eight, rounds, min_self]

end Sha256

theorem length_sha256 (message : Str) : (sha256 message).length = 32 := by
  have state : ∀ blocks : List (List (BitVec 32)),
      (blocks.foldl Sha256.compress Sha256.initialState).length = 8 := fun blocks =>
    List.foldlRecOn blocks Sha256.compress (motive := fun state => state.length = 8) rfl
      fun _ eight block _ => Sha256.length_compress eight block
  simp only [sha256, length_flatMap, length_bytes, map_const', sum_replicate_nat, state]

/-- `fnv.New64a`: 64-bit FNV-1a. -/
def fnv64a (s : Str) : BitVec 64 :=
  s.foldl (fun hash byte => (hash ^^^ byte.toBitVec.setWidth 64) * 1099511628211#64)
    14695981039346656037#64

/-- `hex.EncodeToString`. -/
def hexEncode (s : Str) : Str :=
  s.flatMap fun byte =>
    [byte / 16, byte % 16].map fun nibble => if nibble < 10 then 48 + nibble else 87 + nibble

theorem length_hexEncode (s : Str) : (hexEncode s).length = 2 * s.length := by
  simp only [hexEncode, length_flatMap, length_map, length_cons, length_nil,
    map_const', sum_replicate_nat]
  omega

/-- The number of a big-endian byte string. -/
def ofBytes (s : Str) : Nat := s.foldl (fun n byte => 256 * n + byte.toNat) 0

/-- `base32.StdEncoding` without padding: the bits in groups of five, filled up with zeros. -/
def base32Encode (s : Str) : Str :=
  let count := (8 * s.length + 4) / 5
  let bits := ofBytes s * 2 ^ (5 * count - 8 * s.length)
  (List.range count).map fun i =>
    let quintet := UInt8.ofNat (bits / 32 ^ (count - 1 - i) % 32)
    if quintet < 26 then 65 + quintet else 24 + quintet

/-- A quotient rounded to the nearest number, and halfway to the even one. -/
def roundDiv (numerator denominator : Nat) : Nat :=
  let quotient := numerator / denominator
  let twice := 2 * (numerator % denominator)
  if twice < denominator then quotient
  else if denominator < twice then quotient + 1
  else quotient + quotient % 2

/-- `strconv.FormatFloat(1.0/float64(n), 'f', 10, 64)`: the quotient is rounded to 53 significant
bits and then to 10 decimals. -/
def formatReciprocal (n : Nat) : Str :=
  let shift := 52 + Nat.clog 2 n
  let decimals := roundDiv (roundDiv (2 ^ shift) n * 10 ^ 10) (2 ^ shift)
  let digits := itoa (decimals % 10 ^ 10)
  itoa (decimals / 10 ^ 10) ++ 46 :: List.replicate (10 - digits.length) 48 ++ digits

example : base32Encode "fooba" ++ base32Encode "foob" = "MZXW6YTBMZXW6YQ" := by
  decide +kernel

example : formatReciprocal 3 = "0.3333333333" ∧ formatReciprocal 1 = "1.0000000000" := by
  decide +kernel

end Go
