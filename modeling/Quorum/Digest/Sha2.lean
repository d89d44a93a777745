import Quorum.Bytes

/-! The SHA-2 digests of FIPS 180-4. Both word sizes run the same rounds over a message that
is padded to whole blocks of sixteen words.
-/

namespace Quorum.Digest

/-- The eight words that the rounds work on. -/
structure Sha2.State (Word : Type) where
  a : Word
  b : Word
  c : Word
  d : Word
  e : Word
  f : Word
  g : Word
  h : Word

/-- What tells one SHA-2 digest from another. -/
structure Sha2 (Word : Type) where
  wordBytes : Nat
  ofNat : Nat → Word
  toNat : Word → Nat
  add : Word → Word → Word
  choose : Word → Word → Word → Word
  majority : Word → Word → Word → Word
  upperSigma0 : Word → Word
  upperSigma1 : Word → Word
  lowerSigma0 : Word → Word
  lowerSigma1 : Word → Word
  constants : List Word
  initial : Sha2.State Word

namespace Sha2

variable {Word : Type}

def blockBytes (sha : Sha2 Word) : Nat :=
  16 * sha.wordBytes

/-- The message, the bit 1, zeros, and the length in bits in the last two words. -/
def pad (sha : Sha2 Word) (message : Bytes) : Bytes :=
  let lengthBytes := 2 * sha.wordBytes
  let used := (message.length + 1 + lengthBytes) % sha.blockBytes
  message ++ 0x80 :: List.replicate ((sha.blockBytes - used) % sha.blockBytes) 0
    ++ Bytes.bigEndian lengthBytes (8 * message.length)

/-- The next `count` words of a block. -/
def words (sha : Sha2 Word) : Nat → Bytes → List Word
  | 0, _ => []
  | count + 1, bytes =>
      sha.ofNat (Bytes.ofBigEndian (bytes.take sha.wordBytes))
        :: words sha count (bytes.drop sha.wordBytes)

/-- One more word of a message schedule. -/
def extend (sha : Sha2 Word) (schedule : Array Word) : Array Word :=
  let zero := sha.ofNat 0
  let back (distance : Nat) := schedule.getD (schedule.size - distance) zero
  schedule.push
    (sha.add (sha.add (back 16) (sha.lowerSigma0 (back 15)))
      (sha.add (back 7) (sha.lowerSigma1 (back 2))))

/-- A word for each round, of which the first sixteen are those of the block. -/
def schedule (sha : Sha2 Word) (block : Bytes) : List Word :=
  ((sha.constants.drop 16).foldl (fun schedule _ => sha.extend schedule)
    (sha.words 16 block).toArray).toList

def step (sha : Sha2 Word) (state : State Word) (input : Word × Word) : State Word :=
  let first :=
    sha.add (sha.add state.h (sha.upperSigma1 state.e))
      (sha.add (sha.choose state.e state.f state.g) (sha.add input.1 input.2))
  let second := sha.add (sha.upperSigma0 state.a) (sha.majority state.a state.b state.c)
  ⟨sha.add first second, state.a, state.b, state.c, sha.add state.d first, state.e, state.f, state.g⟩

def compress (sha : Sha2 Word) (state : State Word) (block : Bytes) : State Word :=
  let mixed := (sha.constants.zip (sha.schedule block)).foldl sha.step state
  ⟨sha.add state.a mixed.a, sha.add state.b mixed.b, sha.add state.c mixed.c,
    sha.add state.d mixed.d, sha.add state.e mixed.e, sha.add state.f mixed.f,
    sha.add state.g mixed.g, sha.add state.h mixed.h⟩

/-- Compresses the blocks of a padded message one after another. -/
def absorb (sha : Sha2 Word) (state : State Word) : Bytes → State Word
  | [] => state
  | byte :: rest =>
      let size := sha.blockBytes - 1
      sha.absorb (sha.compress state (byte :: rest.take size)) (rest.drop size)
  termination_by bytes => bytes.length
  decreasing_by simp only [List.length_drop, List.length_cons]; omega

def hash (sha : Sha2 Word) (message : Bytes) : Bytes :=
  let state := sha.absorb sha.initial (sha.pad message)
  [state.a, state.b, state.c, state.d, state.e, state.f, state.g, state.h].flatMap
    fun word => Bytes.bigEndian sha.wordBytes (sha.toNat word)

end Sha2

def rotateRight32 (word amount : UInt32) : UInt32 :=
  word >>> amount ||| word <<< (32 - amount)

def rotateRight64 (word amount : UInt64) : UInt64 :=
  word >>> amount ||| word <<< (64 - amount)

def sha256 : Sha2 UInt32 where
  wordBytes := 4
  ofNat := UInt32.ofNat
  toNat := UInt32.toNat
  add := (· + ·)
  choose x y z := (x &&& y) ^^^ (~~~x &&& z)
  majority x y z := (x &&& y) ^^^ (x &&& z) ^^^ (y &&& z)
  upperSigma0 x := rotateRight32 x 2 ^^^ rotateRight32 x 13 ^^^ rotateRight32 x 22
  upperSigma1 x := rotateRight32 x 6 ^^^ rotateRight32 x 11 ^^^ rotateRight32 x 25
  lowerSigma0 x := rotateRight32 x 7 ^^^ rotateRight32 x 18 ^^^ x >>> 3
  lowerSigma1 x := rotateRight32 x 17 ^^^ rotateRight32 x 19 ^^^ x >>> 10
  constants := [
    0x428a2f98, 0x71374491, 0xb5c0fbcf, 0xe9b5dba5, 0x3956c25b, 0x59f111f1,
    0x923f82a4, 0xab1c5ed5, 0xd807aa98, 0x12835b01, 0x243185be, 0x550c7dc3,
    0x72be5d74, 0x80deb1fe, 0x9bdc06a7, 0xc19bf174, 0xe49b69c1, 0xefbe4786,
    0x0fc19dc6, 0x240ca1cc, 0x2de92c6f, 0x4a7484aa, 0x5cb0a9dc, 0x76f988da,
    0x983e5152, 0xa831c66d, 0xb00327c8, 0xbf597fc7, 0xc6e00bf3, 0xd5a79147,
    0x06ca6351, 0x14292967, 0x27b70a85, 0x2e1b2138, 0x4d2c6dfc, 0x53380d13,
    0x650a7354, 0x766a0abb, 0x81c2c92e, 0x92722c85, 0xa2bfe8a1, 0xa81a664b,
    0xc24b8b70, 0xc76c51a3, 0xd192e819, 0xd6990624, 0xf40e3585, 0x106aa070,
    0x19a4c116, 0x1e376c08, 0x2748774c, 0x34b0bcb5, 0x391c0cb3, 0x4ed8aa4a,
    0x5b9cca4f, 0x682e6ff3, 0x748f82ee, 0x78a5636f, 0x84c87814, 0x8cc70208,
    0x90befffa, 0xa4506ceb, 0xbef9a3f7, 0xc67178f2]
  initial :=
    ⟨0x6a09e667, 0xbb67ae85, 0x3c6ef372, 0xa54ff53a, 0x510e527f, 0x9b05688c,
      0x1f83d9ab, 0x5be0cd19⟩

def sha512 : Sha2 UInt64 where
  wordBytes := 8
  ofNat := UInt64.ofNat
  toNat := UInt64.toNat
  add := (· + ·)
  choose x y z := (x &&& y) ^^^ (~~~x &&& z)
  majority x y z := (x &&& y) ^^^ (x &&& z) ^^^ (y &&& z)
  upperSigma0 x := rotateRight64 x 28 ^^^ rotateRight64 x 34 ^^^ rotateRight64 x 39
  upperSigma1 x := rotateRight64 x 14 ^^^ rotateRight64 x 18 ^^^ rotateRight64 x 41
  lowerSigma0 x := rotateRight64 x 1 ^^^ rotateRight64 x 8 ^^^ x >>> 7
  lowerSigma1 x := rotateRight64 x 19 ^^^ rotateRight64 x 61 ^^^ x >>> 6
  constants := [
    0x428a2f98d728ae22, 0x7137449123ef65cd, 0xb5c0fbcfec4d3b2f, 0xe9b5dba58189dbbc,
    0x3956c25bf348b538, 0x59f111f1b605d019, 0x923f82a4af194f9b, 0xab1c5ed5da6d8118,
    0xd807aa98a3030242, 0x12835b0145706fbe, 0x243185be4ee4b28c, 0x550c7dc3d5ffb4e2,
    0x72be5d74f27b896f, 0x80deb1fe3b1696b1, 0x9bdc06a725c71235, 0xc19bf174cf692694,
    0xe49b69c19ef14ad2, 0xefbe4786384f25e3, 0x0fc19dc68b8cd5b5, 0x240ca1cc77ac9c65,
    0x2de92c6f592b0275, 0x4a7484aa6ea6e483, 0x5cb0a9dcbd41fbd4, 0x76f988da831153b5,
    0x983e5152ee66dfab, 0xa831c66d2db43210, 0xb00327c898fb213f, 0xbf597fc7beef0ee4,
    0xc6e00bf33da88fc2, 0xd5a79147930aa725, 0x06ca6351e003826f, 0x142929670a0e6e70,
    0x27b70a8546d22ffc, 0x2e1b21385c26c926, 0x4d2c6dfc5ac42aed, 0x53380d139d95b3df,
    0x650a73548baf63de, 0x766a0abb3c77b2a8, 0x81c2c92e47edaee6, 0x92722c851482353b,
    0xa2bfe8a14cf10364, 0xa81a664bbc423001, 0xc24b8b70d0f89791, 0xc76c51a30654be30,
    0xd192e819d6ef5218, 0xd69906245565a910, 0xf40e35855771202a, 0x106aa07032bbd1b8,
    0x19a4c116b8d2d0c8, 0x1e376c085141ab53, 0x2748774cdf8eeb99, 0x34b0bcb5e19b48a8,
    0x391c0cb3c5c95a63, 0x4ed8aa4ae3418acb, 0x5b9cca4f7763e373, 0x682e6ff3d6b2b8a3,
    0x748f82ee5defb2fc, 0x78a5636f43172f60, 0x84c87814a1f0ab72, 0x8cc702081a6439ec,
    0x90befffa23631e28, 0xa4506cebde82bde9, 0xbef9a3f7b2c67915, 0xc67178f2e372532b,
    0xca273eceea26619c, 0xd186b8c721c0c207, 0xeada7dd6cde0eb1e, 0xf57d4f7fee6ed178,
    0x06f067aa72176fba, 0x0a637dc5a2c898a6, 0x113f9804bef90dae, 0x1b710b35131c471b,
    0x28db77f523047d84, 0x32caab7b40c72493, 0x3c9ebe0a15c9bebc, 0x431d67c49c100d4c,
    0x4cc5d4becb3e42b6, 0x597f299cfc657e2a, 0x5fcb6fab3ad6faec, 0x6c44198c4a475817]
  initial :=
    ⟨0x6a09e667f3bcc908, 0xbb67ae8584caa73b, 0x3c6ef372fe94f82b,
      0xa54ff53a5f1d36f1, 0x510e527fade682d1, 0x9b05688c2b3e6c1f,
      0x1f83d9abfb41bd6b, 0x5be0cd19137e2179⟩

end Quorum.Digest
