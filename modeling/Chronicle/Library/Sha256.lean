import Chronicle.Library.Bytes

/-!
# SHA-256

The compression of one block, the padding, and the digest of a sequence of bytes.
-/

namespace Chronicle.Library.Sha256

open Chronicle.Library.Bytes

/-- A word of the computation. -/
abbrev Word := BitVec 32

/-- The constants of the rounds. -/
def roundConstants : List Word :=
  [0x428a2f98, 0x71374491, 0xb5c0fbcf, 0xe9b5dba5, 0x3956c25b, 0x59f111f1, 0x923f82a4, 0xab1c5ed5,
    0xd807aa98, 0x12835b01, 0x243185be, 0x550c7dc3, 0x72be5d74, 0x80deb1fe, 0x9bdc06a7, 0xc19bf174,
    0xe49b69c1, 0xefbe4786, 0x0fc19dc6, 0x240ca1cc, 0x2de92c6f, 0x4a7484aa, 0x5cb0a9dc, 0x76f988da,
    0x983e5152, 0xa831c66d, 0xb00327c8, 0xbf597fc7, 0xc6e00bf3, 0xd5a79147, 0x06ca6351, 0x14292967,
    0x27b70a85, 0x2e1b2138, 0x4d2c6dfc, 0x53380d13, 0x650a7354, 0x766a0abb, 0x81c2c92e, 0x92722c85,
    0xa2bfe8a1, 0xa81a664b, 0xc24b8b70, 0xc76c51a3, 0xd192e819, 0xd6990624, 0xf40e3585, 0x106aa070,
    0x19a4c116, 0x1e376c08, 0x2748774c, 0x34b0bcb5, 0x391c0cb3, 0x4ed8aa4a, 0x5b9cca4f, 0x682e6ff3,
    0x748f82ee, 0x78a5636f, 0x84c87814, 0x8cc70208, 0x90befffa, 0xa4506ceb, 0xbef9a3f7, 0xc67178f2]

/-- The eight words of a digest. -/
structure Digest where
  a : Word := 0x6a09e667
  b : Word := 0xbb67ae85
  c : Word := 0x3c6ef372
  d : Word := 0xa54ff53a
  e : Word := 0x510e527f
  f : Word := 0x9b05688c
  g : Word := 0x1f83d9ab
  h : Word := 0x5be0cd19

/-- One round, with its constant and its word of the schedule. -/
def round (digest : Digest) (step : Word × Word) : Digest :=
  let sum1 := digest.e.rotateRight 6 ^^^ digest.e.rotateRight 11 ^^^ digest.e.rotateRight 25
  let choice := (digest.e &&& digest.f) ^^^ (~~~digest.e &&& digest.g)
  let first := digest.h + sum1 + choice + step.1 + step.2
  let sum0 := digest.a.rotateRight 2 ^^^ digest.a.rotateRight 13 ^^^ digest.a.rotateRight 22
  let majority := (digest.a &&& digest.b) ^^^ (digest.a &&& digest.c) ^^^ (digest.b &&& digest.c)
  { a := first + (sum0 + majority)
    b := digest.a
    c := digest.b
    d := digest.c
    e := digest.d + first
    f := digest.e
    g := digest.f
    h := digest.g }

/-- The schedule with more words, the latest one first. -/
def extend : Nat → List Word → List Word
  | 0, recent => recent
  | count + 1, recent =>
      let word := fun back => recent.getD back 0
      let low := (word 14).rotateRight 7 ^^^ (word 14).rotateRight 18 ^^^ word 14 >>> 3
      let high := (word 1).rotateRight 17 ^^^ (word 1).rotateRight 19 ^^^ word 1 >>> 10
      extend count ((word 15 + low + word 6 + high) :: recent)

/-- The big-endian words of the bytes, the last one first. -/
def words (recent : List Word) : List UInt8 → List Word
  | first :: second :: third :: fourth :: rest =>
      words (BitVec.ofNat 32 (((first.toNat * 256 + second.toNat) * 256 + third.toNat) * 256 +
        fourth.toNat) :: recent) rest
  | _ => recent

/-- The compression of one block. -/
def compress (digest : Digest) (block : List UInt8) : Digest :=
  let schedule := (extend 48 (words [] block)).reverse
  let last := (roundConstants.zip schedule).foldl round digest
  { a := digest.a + last.a
    b := digest.b + last.b
    c := digest.c + last.c
    d := digest.d + last.d
    e := digest.e + last.e
    f := digest.f + last.f
    g := digest.g + last.g
    h := digest.h + last.h }

/-- The lowest `width` bytes of a number, the highest first. -/
def beBytes (width n : Nat) : List UInt8 := (leBytes width n).reverse

/-- The message, a one bit, zeros, and the number of bits of the message. -/
def padded (bytes : List UInt8) : List UInt8 :=
  bytes ++ 0x80 :: List.replicate ((119 - bytes.length % 64) % 64) 0 ++
    beBytes 8 (8 * bytes.length)

/-- The digest after so many blocks. -/
def digestBlocks : Nat → Digest → List UInt8 → Digest
  | 0, digest, _ => digest
  | count + 1, digest, bytes =>
      digestBlocks count (compress digest (bytes.take 64)) (bytes.drop 64)

/-- SHA-256 -/
def sha256 (bytes : List UInt8) : List UInt8 :=
  let message := padded bytes
  let digest := digestBlocks (message.length / 64) {} message
  [digest.a, digest.b, digest.c, digest.d, digest.e, digest.f, digest.g, digest.h].flatMap
    fun word => beBytes 4 word.toNat

example : sha256 [97, 98, 99] =
    [0xba, 0x78, 0x16, 0xbf, 0x8f, 0x01, 0xcf, 0xea, 0x41, 0x41, 0x40, 0xde, 0x5d, 0xae, 0x22, 0x23,
      0xb0, 0x03, 0x61, 0xa3, 0x96, 0x17, 0x7a, 0x9c, 0xb4, 0x10, 0xff, 0x61, 0xf2, 0x00, 0x15,
      0xad] := by decide +kernel

end Chronicle.Library.Sha256
