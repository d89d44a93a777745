import Quorum.Word

/-! Voting rounds: a block height and a retry counter within it, in lexicographic order. -/

namespace Quorum

/-- A voting round. The counter numbers the retries within a height. -/
structure Round where
  height : UInt64
  counter : UInt64
  deriving DecidableEq, Inhabited, Hashable

namespace Round

/-- The round before any voting. -/
def zero : Round := ⟨0, 0⟩

instance : LT Round where
  lt left right :=
    left.height < right.height ∨ left.height = right.height ∧ left.counter < right.counter

instance : LE Round where
  le left right := left < right ∨ left = right

instance (left right : Round) : Decidable (left < right) :=
  inferInstanceAs (Decidable (_ ∨ _ ∧ _))

instance (left right : Round) : Decidable (left ≤ right) :=
  inferInstanceAs (Decidable (_ ∨ _))

def compare (left right : Round) : Ordering :=
  if left < right then .lt else if left = right then .eq else .gt

/-- The first round of the next height, which follows an agreement at this one. -/
def nextHeight (round : Round) : Except Overflow Round := do
  return ⟨← Word.add round.height 1, 0⟩

/-- The retry at the same height, which follows a failed round. -/
def nextCounter (round : Round) : Except Overflow Round := do
  return ⟨round.height, ← Word.add round.counter 1⟩

/-- The pair of numbers, as messages show a round. -/
def text (round : Round) : String :=
  s!"({round.height}, {round.counter})"

/-- The fields by name. -/
def description (round : Round) : String :=
  "Round \x7b height: " ++ toString round.height ++ ", counter: " ++ toString round.counter ++ " \x7d"

/-- The position of a round in the order of all rounds. -/
def rank (round : Round) : Nat :=
  round.height.toNat * UInt64.size + round.counter.toNat

theorem rank_lt_rank {left right : Round} : left.rank < right.rank ↔ left < right := by
  have hl := left.counter.toNat_lt
  have hr := right.counter.toNat_lt
  change _ ↔ left.height < right.height ∨ left.height = right.height ∧ left.counter < right.counter
  simp only [UInt64.lt_iff_toNat_lt, ← UInt64.toNat_inj, rank, UInt64.size]
  omega

theorem rank_lt (round : Round) : round.rank < UInt64.size ^ 2 := by
  have hl := round.height.toNat_lt
  have hr := round.counter.toNat_lt
  simp only [rank, UInt64.size]
  omega

theorem rank_inj {left right : Round} : left.rank = right.rank ↔ left = right := by
  have hl := left.counter.toNat_lt
  have hr := right.counter.toNat_lt
  rw [Round.mk.injEq, ← UInt64.toNat_inj, ← UInt64.toNat_inj]
  simp only [rank, UInt64.size]
  omega

theorem rank_le_rank {left right : Round} : left.rank ≤ right.rank ↔ left ≤ right := by
  change _ ↔ left < right ∨ left = right
  rw [← rank_lt_rank, ← rank_inj]
  omega

end Round

end Quorum
