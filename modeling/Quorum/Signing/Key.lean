import Quorum.Fault
import Quorum.Signing.Algorithm
import Quorum.Text.Blank

/-! Keys and signatures, each key with the scheme that it is used under. -/

namespace Quorum

namespace Algorithm

/-- The scheme that a message names by its tag. -/
def ofTag (tag : UInt8) : Except Fault Algorithm :=
  match ofTag? tag with
  | some algorithm => .ok algorithm
  | none => .error (.unknownAlgorithm tag)

/-- The scheme that an option names. -/
def ofOption (name : String) : Except Fault Algorithm :=
  match ofName? name with
  | some algorithm => .ok algorithm
  | none => .error (.config (.algorithmOption name))

end Algorithm

structure PublicKey where
  algorithm : Algorithm
  bytes : Bytes
  deriving DecidableEq, Hashable

structure Signature where
  bytes : Bytes
  deriving DecidableEq

/-- A secret seed of 32 bytes and its public key. -/
structure Keypair where
  algorithm : Algorithm
  seed : Bytes
  publicBytes : Bytes

namespace PublicKey

def hex (key : PublicKey) : String :=
  Hex.encode key.bytes

/-- Reads a key in hexadecimal between blank characters. -/
def ofHex (algorithm : Algorithm) (text : String) : Except Fault PublicKey :=
  match Hex.decode (Bytes.ofText (Text.trim text)) with
  | .error fault => .error (.invalidKey (.hex fault))
  | .ok bytes =>
      if bytes.length = 32 then .ok ⟨algorithm, bytes⟩ else .error (.invalidKey .publicLength)

def description (key : PublicKey) : String :=
  s!"PublicKey({key.algorithm.name}:{key.hex})"

/-- Keys are ordered by scheme, then by their bytes. -/
def le (left right : PublicKey) : Bool :=
  if left.algorithm = right.algorithm then left.bytes ≤ right.bytes
  else left.algorithm.tag < right.algorithm.tag

theorem le_total (left right : PublicKey) : (left.le right || right.le left) = true := by
  unfold le
  by_cases same : left.algorithm = right.algorithm
  · simpa [same] using List.le_total left.bytes right.bytes
  · cases hl : left.algorithm <;> cases hr : right.algorithm <;> simp_all [Algorithm.tag]

theorem le_trans (first second third : PublicKey) (h : first.le second = true)
    (h' : second.le third = true)
    : first.le third = true := by
  unfold le at *
  cases h1 : first.algorithm <;> cases h2 : second.algorithm <;> cases h3 : third.algorithm <;>
    simp_all [Algorithm.tag]
  all_goals exact List.le_trans h h'

/-- Checks a signature of the message's digest. -/
def verify (key : PublicKey) (message : Bytes) (signature : Signature) : Except Fault Unit :=
  match Signing.Ed25519.verify key.bytes (key.algorithm.digest message) signature.bytes with
  | .error fault => .error (.invalidKey (.signature fault))
  | .ok () => .ok ()

end PublicKey

def Signature.description (signature : Signature) : String :=
  s!"Signature({Hex.encode signature.bytes})"

namespace Keypair

def ofSeed (algorithm : Algorithm) (seed : Bytes) : Except Fault Keypair :=
  if seed.length = 32 then .ok ⟨algorithm, seed, Signing.Ed25519.publicKey seed⟩
  else .error (.invalidKey .seedLength)

/-- Reads the text of a key file: a seed in hexadecimal between blank characters. -/
def ofText (algorithm : Algorithm) (text : String) : Except Fault Keypair :=
  match Hex.decode (Bytes.ofText (Text.trim text)) with
  | .error fault => .error (.invalidKey (.hex fault))
  | .ok seed => ofSeed algorithm seed

/-- The text of a key file. -/
def text (keypair : Keypair) : String :=
  Hex.encode keypair.seed

/-- Reads a key file, given what reading its bytes gave. -/
def ofFile (algorithm : Algorithm) : Except FileDefect Bytes → Except Fault Keypair
  | .error .missing => .error .missingKey
  | .error defect => .error (.file defect)
  | .ok bytes =>
      match Bytes.toText? bytes with
      | none => .error (.file .notText)
      | some text => ofText algorithm text

def publicKey (keypair : Keypair) : PublicKey :=
  ⟨keypair.algorithm, keypair.publicBytes⟩

def sign (keypair : Keypair) (message : Bytes) : Signature :=
  ⟨Signing.Ed25519.sign keypair.seed keypair.publicBytes (keypair.algorithm.digest message)⟩

end Keypair

end Quorum
