import Quorum.Proofs.Roster.Support

/-! The supermajority rule in 64-bit words, as a rule about sets of keys. It never overflows among
peers whose number can be doubled. Two supermajorities have more keys in common than may be faulty,
and a round is given up only when no further choices can carry a candidate.
-/

namespace Quorum

-----------------------------------------------------------------------------------------
-- The rule in words
-----------------------------------------------------------------------------------------

theorem Word.exists_add {left right : UInt64} (room : left.toNat + right.toNat < UInt64.size)
    : ∃ sum, add left right = .ok sum ∧ sum.toNat = left.toNat + right.toNat := by
  have sum_eq := UInt64.toNat_ofNat_of_lt' room
  exact ⟨_, add_eq_ok.mpr sum_eq, sum_eq⟩

theorem Word.exists_multiply {left right : UInt64} (room : left.toNat * right.toNat < UInt64.size)
    : ∃ product, multiply left right = .ok product
        ∧ product.toNat = left.toNat * right.toNat := by
  have product_eq := UInt64.toNat_ofNat_of_lt' room
  exact ⟨_, multiply_eq_ok.mpr product_eq, product_eq⟩

namespace Supermajority

/-- The leading count and those outstanding are at most all peers together. -/
theorem exists_best {leading voted peers : UInt64} (part : leading ≤ voted) (most : voted ≤ peers)
    : ∃ best, Word.add leading (peers - voted) = .ok best
        ∧ best.toNat = leading.toNat + (peers.toNat - voted.toNat) := by
  have outstanding_eq := UInt64.toNat_sub_of_le peers voted most
  rw [UInt64.le_iff_toNat_le] at part most
  have room : leading.toNat + (peers - voted).toNat < UInt64.size := by
    have := peers.toNat_lt_size
    omega
  rw [← outstanding_eq]
  exact Word.exists_add room

variable {peers : UInt64} (fits : 2 * peers.toNat < UInt64.size)

include fits

/-- Only doubling the peers may overflow. -/
theorem exists_threshold64
    : ∃ needed, threshold64 peers = .ok needed ∧ needed.toNat = threshold peers.toNat := by
  have room : peers.toNat * (2 : UInt64).toNat < UInt64.size := by
    rwa [Nat.mul_comm] at fits
  obtain ⟨double, doubled, double_eq⟩ := Word.exists_multiply room
  have third : (double / 3).toNat = peers.toNat * 2 / 3 := by
    rw [UInt64.toNat_div, double_eq]
    rfl
  have room' : (double / 3).toNat + (1 : UInt64).toNat < UInt64.size := by
    rw [third]
    simp only [UInt64.toNat_one, UInt64.size] at fits ⊢
    omega
  obtain ⟨needed, added, needed_eq⟩ := Word.exists_add room'
  refine ⟨needed, ?_, ?_⟩
  · unfold threshold64
    rw [doubled]
    exact added
  · rw [needed_eq, third]
    rfl

theorem reached64_eq (count : UInt64)
    : reached64 count peers = .ok (decide (Reached count.toNat peers.toNat)) := by
  obtain ⟨needed, computed, needed_eq⟩ := exists_threshold64 fits
  unfold reached64
  by_cases possible : 0 < peers ∧ count ≤ peers
  · have enough : needed ≤ count ↔ Reached count.toNat peers.toNat := by
      rw [UInt64.le_iff_toNat_le, needed_eq]
      exact ⟨fun enough => ⟨possible.1, possible.2, enough⟩, fun reached => reached.2.2⟩
    rw [if_pos possible, computed, ← decide_eq_decide.mpr enough]
    rfl
  · rw [if_neg possible, decide_eq_false fun reached => possible ⟨reached.1, reached.2.1⟩]
    rfl

theorem outOfReach64_eq {leading voted : UInt64} (part : leading ≤ voted)
    : outOfReach64 leading voted peers
      = .ok (decide (OutOfReach leading.toNat voted.toNat peers.toNat)) := by
  obtain ⟨needed, computed, needed_eq⟩ := exists_threshold64 fits
  unfold outOfReach64
  by_cases odd : peers = 0 ∨ peers < voted
  · rw [if_pos odd, decide_eq_false]
    · rfl
    · rintro ⟨some_peer, most, -⟩
      rcases odd with rfl | beyond
      · exact Nat.lt_irrefl 0 some_peer
      · exact Nat.not_lt.mpr most beyond
  obtain ⟨some_peer, most⟩ := not_or.mp odd
  have most : voted ≤ peers := UInt64.not_lt.mp most
  obtain ⟨best, added, best_eq⟩ := exists_best part most
  rw [if_neg odd, computed]
  -- With the threshold computed, what is left is the choice by the number of votes.
  change (if needed ≤ voted then _ else _) = _
  by_cases enough : needed ≤ voted
  · have short : best < needed ↔ OutOfReach leading.toNat voted.toNat peers.toNat := by
      rw [UInt64.le_iff_toNat_le, needed_eq] at enough
      rw [UInt64.lt_iff_toNat_lt, best_eq, needed_eq]
      have some_peer : 0 < peers := UInt64.pos_iff_ne_zero.mpr some_peer
      exact ⟨fun short => ⟨some_peer, most, enough, short⟩, fun out => out.2.2.2⟩
    rw [if_pos enough, added, ← decide_eq_decide.mpr short]
    rfl
  · rw [if_neg enough, decide_eq_false]
    · rfl
    · rintro ⟨-, -, enough', -⟩
      rw [← needed_eq] at enough'
      exact enough enough'

end Supermajority

/-- The choices once all that were outstanding have joined the supporters of a candidate. -/
def Choices.join (choices : Choices) (candidate : Candidate) : Choices :=
  fun key => (choices key).or (some candidate)

namespace Roster

-----------------------------------------------------------------------------------------
-- Sets of keys
-----------------------------------------------------------------------------------------

/-- The rule in words on the number of some keys. -/
def reached64 (roster : Roster) (keys : Finset PublicKey) : Except Overflow Bool :=
  Supermajority.reached64 (.ofNat keys.card) (.ofNat roster.size)

/-- The rule in words on the counts of choices. -/
def outOfReach64 (roster : Roster) (choices : Choices) : Except Overflow Bool :=
  Supermajority.outOfReach64 (.ofNat (roster.leading choices))
    (.ofNat (roster.participants choices).card) (.ofNat roster.size)

section

variable {roster : Roster} (fits : 2 * roster.size < UInt64.size)

include fits

theorem toNat_ofNat_of_le {count : Nat} (part : count ≤ roster.size)
    : (UInt64.ofNat count).toNat = count :=
  UInt64.toNat_ofNat_of_lt' (by omega)

theorem fits_ofNat : 2 * (UInt64.ofNat roster.size).toNat < UInt64.size := by
  rwa [toNat_ofNat_of_le fits (Nat.le_refl _)]

theorem reached64_eq {keys : Finset PublicKey} (peers : keys ⊆ roster.keys)
    : roster.reached64 keys = .ok (decide (roster.threshold ≤ keys.card)) := by
  have part : keys.card ≤ roster.size := roster.card_keys ▸ Finset.card_le_card peers
  have enough
      : Supermajority.Reached keys.card roster.size ↔ roster.threshold ≤ keys.card :=
    ⟨fun reached => reached.2.2, fun enough => ⟨roster.size_pos, part, enough⟩⟩
  rw [reached64, Supermajority.reached64_eq (fits_ofNat fits), toNat_ofNat_of_le fits part,
    toNat_ofNat_of_le fits (Nat.le_refl _), decide_eq_decide.mpr enough]

theorem reached64_iff {keys : Finset PublicKey} (peers : keys ⊆ roster.keys)
    : roster.reached64 keys = .ok true ↔ roster.threshold ≤ keys.card := by
  rw [reached64_eq fits peers, Except.ok.injEq, decide_eq_true_iff]

/-- The rule in words tells a deadlock. -/
theorem exists_outOfReach64 (choices : Choices)
    : ∃ rejected, roster.outOfReach64 choices = .ok rejected
        ∧ (rejected = true ↔ roster.Deadlocked choices) := by
  have most := roster.card_participants_le choices
  have part := roster.leading_le_card_participants choices
  have part64
      : UInt64.ofNat (roster.leading choices)
        ≤ UInt64.ofNat (roster.participants choices).card := by
    rwa [UInt64.le_iff_toNat_le, toNat_ofNat_of_le fits most,
      toNat_ofNat_of_le fits (part.trans most)]
  refine ⟨_, Supermajority.outOfReach64_eq (fits_ofNat fits) part64, ?_⟩
  rw [decide_eq_true_iff, toNat_ofNat_of_le fits most, toNat_ofNat_of_le fits (part.trans most),
    toNat_ofNat_of_le fits (Nat.le_refl _), outOfReach_iff]

end

-----------------------------------------------------------------------------------------
-- Further choices
-----------------------------------------------------------------------------------------

theorem keeps_join (roster : Roster) (choices : Choices) (candidate : Candidate)
    : roster.Keeps choices (choices.join candidate) := by
  intro key other _ choice
  rw [Choices.join, choice, Option.some_or]

/-- Joined by all that are outstanding, a candidate has the best possible count. -/
theorem card_supporters_join (roster : Roster) (choices : Choices) (candidate : Candidate)
    : (roster.supporters (choices.join candidate) candidate).card
      = (roster.supporters choices candidate).card + roster.outstanding choices := by
  have parts
      : roster.supporters (choices.join candidate) candidate
        = roster.supporters choices candidate ∪ (roster.keys \ roster.participants choices) := by
    ext key
    cases choice : choices key <;> simp [Choices.join, choice]
  have apart
      : Disjoint (roster.supporters choices candidate)
          (roster.keys \ roster.participants choices) :=
    Finset.disjoint_sdiff.mono_left (roster.supporters_subset_participants choices candidate)
  rw [parts, Finset.card_union_of_disjoint apart,
    Finset.card_sdiff_of_subset (roster.participants_subset_keys choices), card_keys, outstanding]

/-- There is a deadlock exactly if the participants are a supermajority and no further choices carry
a candidate.
-/
theorem deadlocked_iff {roster : Roster} {choices : Choices}
    : roster.Deadlocked choices
      ↔ roster.threshold ≤ (roster.participants choices).card
        ∧ ∀ later, roster.Keeps choices later → ∀ candidate, ¬ roster.Carries later candidate := by
  constructor
  · intro deadlock
    exact ⟨deadlock.1, fun later kept candidate => deadlock.not_carries_later kept⟩
  · rintro ⟨enough, never⟩
    refine ⟨enough, fun candidate => ?_⟩
    rw [← card_supporters_join]
    exact Nat.lt_of_not_le (never _ (roster.keeps_join choices candidate) candidate)

/-- Among peers whose number can be doubled the rule in words always has an answer. All peers but as
many as may be faulty are a supermajority, no fewer are, and two supermajorities have more keys than
that in common. At most one candidate has a supermajority of the choices. These are given up exactly
if enough peers have made theirs, yet no candidate gets a supermajority whatever the others choose.
-/
theorem supermajorities_overlap_and_rejection_is_final (roster : Roster)
    (fits : 2 * roster.size < UInt64.size)
    : let faulty := (roster.size - 1) / 3
      (∃ needed,
          Supermajority.threshold64 (.ofNat roster.size) = .ok needed
          ∧ needed.toNat = roster.size - faulty)
      ∧ (∀ keys ⊆ roster.keys,
          roster.reached64 keys = .ok (decide (roster.size - faulty ≤ keys.card)))
      ∧ (∀ left ⊆ roster.keys, ∀ right ⊆ roster.keys,
          roster.reached64 left = .ok true → roster.reached64 right = .ok true →
          faulty < (left ∩ right).card)
      ∧ ∀ choices : Choices,
          (∀ first second,
              roster.reached64 (roster.supporters choices first) = .ok true →
              roster.reached64 (roster.supporters choices second) = .ok true → first = second)
          ∧ ∃ rejected,
              roster.outOfReach64 choices = .ok rejected
              ∧ (rejected = true
                ↔ roster.reached64 (roster.participants choices) = .ok true
                  ∧ ∀ later, roster.Keeps choices later → ∀ candidate,
                      roster.reached64 (roster.supporters later candidate) = .ok false) := by
  intro faulty
  have threshold_eq : roster.threshold = roster.size - faulty :=
    Supermajority.threshold_eq_sub roster.size_pos
  refine ⟨?_, ?_, ?_, fun choices => ⟨?_, ?_⟩⟩
  · obtain ⟨needed, computed, needed_eq⟩ := Supermajority.exists_threshold64 (fits_ofNat fits)
    rw [toNat_ofNat_of_le fits (Nat.le_refl _)] at needed_eq
    exact ⟨needed, computed, needed_eq.trans threshold_eq⟩
  · intro keys peers
    rw [reached64_eq fits peers, threshold_eq]
  · intro left left_peers right right_peers left_many right_many
    exact faulty_lt_card_inter left_peers right_peers ((reached64_iff fits left_peers).mp left_many)
      ((reached64_iff fits right_peers).mp right_many)
  · intro first second first_many second_many
    have carries {candidate : Candidate}
        (many : roster.reached64 (roster.supporters choices candidate) = .ok true)
        : roster.Carries choices candidate :=
      (reached64_iff fits (roster.supporters_subset_keys choices candidate)).mp many
    exact (carries first_many).unique (carries second_many)
  · obtain ⟨rejected, computed, deadlocked⟩ := exists_outOfReach64 fits choices
    refine ⟨rejected, computed, ?_⟩
    rw [deadlocked, deadlocked_iff, reached64_iff fits (roster.participants_subset_keys choices)]
    refine and_congr_right fun _ => forall₃_congr fun later _ candidate => ?_
    rw [reached64_eq fits (roster.supporters_subset_keys later candidate), Except.ok.injEq,
      decide_eq_false_iff_not, Carries]

/-- Three of four peers choose a block each, so that the fourth one cannot carry any. -/
def threeWays : Choices :=
  fun key => if key = .numbered 4 then none else some ⟨⟨5, 0⟩, key.bytes, key.bytes⟩

theorem supermajorities_overlap_among_four
    : 2 * four.size < UInt64.size
      ∧ (∃ needed, Supermajority.threshold64 4 = .ok needed ∧ needed.toNat = 3)
      ∧ four.outOfReach64 threeWays = .ok true
      ∧ (∀ left ⊆ four.keys, ∀ right ⊆ four.keys,
          four.reached64 left = .ok true → four.reached64 right = .ok true →
          1 < (left ∩ right).card)
      ∧ ∀ later, four.Keeps threeWays later → ∀ candidate,
          four.reached64 (four.supporters later candidate) = .ok false := by
  have fits : 2 * four.size < UInt64.size := by decide
  obtain ⟨needed, -, overlap, rejection⟩ := supermajorities_overlap_and_rejection_is_final four fits
  have stuck : four.outOfReach64 threeWays = .ok true := by decide +kernel
  obtain ⟨rejected, computed, final⟩ := (rejection threeWays).2
  obtain rfl : true = rejected := Except.ok.inj (stuck.symm.trans computed)
  exact ⟨fits, needed, stuck, overlap, (final.mp rfl).2⟩

end Roster

end Quorum
