import Quorum.Vote

/-! What a node votes for in a round. -/

namespace Quorum.Proposal

/-- No block, in any round. -/
def empty (round : Round) : Candidate :=
  .empty round

/-- A stand-in block that depends on the round alone. -/
def demo (round : Round) : Candidate :=
  let seed := Bytes.bigEndian 8 round.height.toNat ++ Bytes.bigEndian 8 round.counter.toNat
  let digest (label : String) := Digest.sha256.hash (Bytes.ofText label ++ seed)
  ⟨round, digest "proposal", digest "block"⟩

end Quorum.Proposal
