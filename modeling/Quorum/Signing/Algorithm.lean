import Quorum.Digest.Sha2
import Quorum.Digest.Blake3

/-! The signature schemes. Each digests a message first and signs the digest with Ed25519. -/

namespace Quorum

inductive Algorithm where
  | ed25519Sha256
  | ed25519Blake3
  deriving DecidableEq, Hashable

namespace Algorithm

instance : Inhabited Algorithm := ⟨ed25519Sha256⟩

/-- The number that stands for a scheme in messages between nodes. -/
def tag : Algorithm → UInt8
  | ed25519Sha256 => 0
  | ed25519Blake3 => 1

def ofTag? (tag : UInt8) : Option Algorithm :=
  if tag = 0 then some ed25519Sha256
  else if tag = 1 then some ed25519Blake3
  else none

theorem ofTag?_tag (algorithm : Algorithm) : ofTag? algorithm.tag = some algorithm := by
  cases algorithm <;> rfl

theorem tag_of_ofTag? {tag : UInt8} {algorithm : Algorithm} (known : ofTag? tag = some algorithm)
    : algorithm.tag = tag := by
  unfold ofTag? at known
  split at known
  · next first => cases known; exact first.symm
  · split at known
    · next second => cases known; exact second.symm
    · cases known

def name : Algorithm → String
  | ed25519Sha256 => "ed25519-sha256"
  | ed25519Blake3 => "ed25519-blake3"

/-- The scheme with exactly this name. -/
def ofName? (name : String) : Option Algorithm :=
  if name = "ed25519-sha256" then some ed25519Sha256
  else if name = "ed25519-blake3" then some ed25519Blake3
  else none

/-- The name as one word. -/
def description : Algorithm → String
  | ed25519Sha256 => "Ed25519Sha256"
  | ed25519Blake3 => "Ed25519Blake3"

def digest : Algorithm → Bytes → Bytes
  | ed25519Sha256 => Digest.sha256.hash
  | ed25519Blake3 => Digest.Blake3.hash

end Algorithm

end Quorum
