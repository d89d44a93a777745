import Quorum.Word

/-! The supermajority rule for `n` peers of which `(n - 1) / 3` may be faulty. -/

namespace Quorum.Supermajority

/-- The fewest votes that decide among this many peers. -/
def threshold (peers : Nat) : Nat :=
  peers * 2 / 3 + 1

/-- The count is a supermajority of the peers. -/
def Reached (count peers : Nat) : Prop :=
  0 < peers ∧ count ≤ peers ∧ threshold peers ≤ count

/-- Enough peers voted, and no candidate can reach a supermajority any more even if every
outstanding peer joined the leading one.
-/
def OutOfReach (leading voted peers : Nat) : Prop :=
  0 < peers ∧ voted ≤ peers ∧ threshold peers ≤ voted ∧
    leading + (peers - voted) < threshold peers

instance (count peers : Nat) : Decidable (Reached count peers) :=
  inferInstanceAs (Decidable (_ ∧ _))

instance (leading voted peers : Nat) : Decidable (OutOfReach leading voted peers) :=
  inferInstanceAs (Decidable (_ ∧ _))

/-- The threshold in 64-bit words; doubling the number of peers may overflow. -/
def threshold64 (peers : UInt64) : Except Overflow UInt64 := do
  Word.add ((← Word.multiply peers 2) / 3) 1

/-- `Reached` in 64-bit words. The threshold is computed only where the count does not exceed
the peers.
-/
def reached64 (count peers : UInt64) : Except Overflow Bool := do
  if 0 < peers ∧ count ≤ peers then
    return (← threshold64 peers) ≤ count
  else
    return false

/-- `OutOfReach` in 64-bit words. The best possible count is computed only where enough peers
voted.
-/
def outOfReach64 (leading voted peers : UInt64) : Except Overflow Bool := do
  if peers = 0 ∨ peers < voted then
    return false
  else
    let needed ← threshold64 peers
    if needed ≤ voted then
      return (← Word.add leading (peers - voted)) < needed
    else
      return false

end Quorum.Supermajority
