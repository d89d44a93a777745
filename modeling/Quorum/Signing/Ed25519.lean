import Quorum.Digest.Sha2
import Quorum.Signing.Edwards

/-! Ed25519 signatures. Verification accepts keys of small order and compares the encoded
points; a signature's scalar must be below the order of the base point.
-/

namespace Quorum.Signing.Ed25519

open Edwards

/-- A seed's secret scalar and the secret that makes its nonces. -/
structure Secret where
  scalar : Nat
  nonceKey : Bytes

/-- The lower half of the seed's digest, moved to a multiple of eight between `2²⁵⁴` and `2²⁵⁵`,
and the upper half.
-/
def expand (seed : Bytes) : Secret :=
  let digest := Digest.sha512.hash seed
  let value := Bytes.ofLittleEndian (digest.take 32)
  ⟨value / 8 * 8 % 2 ^ 254 + 2 ^ 254, digest.drop 32⟩

def publicKey (seed : Bytes) : Bytes :=
  (base.multiply (expand seed).scalar).encode

/-- A digest as a scalar. -/
def reduce (bytes : Bytes) : Nat :=
  Bytes.ofLittleEndian (Digest.sha512.hash bytes) % order

/-- The signature of a message by a seed whose public key is given. -/
def sign (seed key message : Bytes) : Bytes :=
  let secret := expand seed
  let nonce := reduce (secret.nonceKey ++ message)
  let commitment := (base.multiply nonce).encode
  let challenge := reduce (commitment ++ key ++ message)
  commitment ++ Bytes.littleEndian 32 ((challenge * secret.scalar + nonce) % order)

/-- Why a signature is refused. -/
inductive Fault where
  | keyLength
  | keyPoint
  | malformed
  | mismatch
  deriving DecidableEq

def Fault.message : Fault → String
  | .keyLength => "signature error: PublicKey must be 32 bytes in length"
  | .keyPoint => "signature error: Cannot decompress Edwards point"
  | .malformed => "malformed signature: signature error"
  | .mismatch => "signature verification failed"

/-- A signature has 64 bytes, and the top three bits of the last are clear. -/
def WellFormed (signature : Bytes) : Prop :=
  signature.length = 64 ∧ Bytes.ofLittleEndian signature < 2 ^ 509

instance (signature : Bytes) : Decidable (WellFormed signature) :=
  inferInstanceAs (Decidable (_ ∧ _))

/-- Checks the key, then the form of the signature, then its equation. -/
def verify (key message signature : Bytes) : Except Fault Unit :=
  if key.length ≠ 32 then .error .keyLength
  else
    match Point.decode? key with
    | none => .error .keyPoint
    | some point =>
        if ¬ WellFormed signature then .error .malformed
        else
          let commitment := signature.take 32
          let scalar := Bytes.ofLittleEndian (signature.drop 32)
          let challenge := reduce (commitment ++ key ++ message)
          let expected := (base.multiply scalar).add (point.negate.multiply challenge)
          if scalar < order ∧ expected.encode = commitment then .ok () else .error .mismatch

end Quorum.Signing.Ed25519
