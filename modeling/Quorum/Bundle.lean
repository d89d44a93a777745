import Quorum.Vote

/-! Bundles: the lists of votes that nodes send to each other. A bundle is sound if it holds
votes of exactly one round.
-/

namespace Quorum

inductive BundleDefect where
  | empty
  | mixedRounds
  deriving DecidableEq

def BundleDefect.message : BundleDefect → String
  | .empty => "empty votes collection"
  | .mixedRounds => "votes reference different rounds"

namespace Bundle

/-- The round that all votes of a bundle are for. -/
def round : List Vote → Except BundleDefect Round
  | [] => .error .empty
  | first :: rest =>
      if ∀ vote ∈ rest, vote.round = first.round then .ok first.round else .error .mixedRounds

end Bundle

end Quorum
