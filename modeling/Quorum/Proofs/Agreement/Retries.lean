import Quorum.Proofs.Agreement.Round

/-! Retries of a height. Where every peer votes for its own proposal only, a height is tried again
only after a deadlock, and nothing can be carried any more in a deadlocked round. So at most one
block is carried at each height.
-/

namespace Quorum

theorem Round.eq_of_height {left right : Round} (height : left.height = right.height)
    (counter : left.counter.toNat = right.counter.toNat)
    : left = right := by
  cases left
  cases right
  exact congrArg₂ Round.mk height (UInt64.toNat_inj.mp counter)

/-- The retry has the same height and the next counter. -/
theorem Round.nextCounter_eq_ok {round next : Round} (following : round.nextCounter = .ok next)
    : next.height = round.height ∧ next.counter.toNat = round.counter.toNat + 1 := by
  unfold nextCounter at following
  cases sum : Word.add round.counter 1 with
  | error overflow =>
      rw [sum] at following
      cases following
  | ok counter =>
      rw [sum] at following
      cases following
      exact ⟨rfl, Word.add_eq_ok.mp sum⟩

/-- The next height starts with its first round. -/
theorem Round.nextHeight_eq_ok {round next : Round} (following : round.nextHeight = .ok next)
    : next.height.toNat = round.height.toNat + 1 ∧ next.counter = 0 := by
  unfold nextHeight at following
  cases sum : Word.add round.height 1 with
  | error overflow =>
      rw [sum] at following
      cases following
  | ok height =>
      rw [sum] at following
      cases following
      exact ⟨Word.add_eq_ok.mp sum, rfl⟩

abbrev Roster.Member (roster : Roster) :=
  { key : PublicKey // roster.Has key }

/-- What the peers of a roster propose for each round. -/
structure Proposals (roster : Roster) where
  propose : roster.Member → Round → Candidate
  ofRound : ∀ member round, (propose member round).round = round

namespace Proposals

variable {roster : Roster} (proposals : Proposals roster)

/-- The candidate is the proposal of the key's owner for its round. -/
def Proposed (key : PublicKey) (candidate : Candidate) : Prop :=
  ∃ member : roster.Member,
    member.1 = key ∧ candidate = proposals.propose member candidate.round

/-- The rounds that a peer may come to: the first one of each height, and the retry of one that is
deadlocked by proposals.
-/
inductive Open : Round → Prop
  | first (height : UInt64) : Open ⟨height, 0⟩
  | retry {round next : Round} {choices : Choices} (opened : Open round)
    (proposed : choices.Backed proposals.Proposed round) (deadlock : roster.Deadlocked choices)
    (following : round.nextCounter = .ok next)
    : Open next

/-- The votes that there may be: those for proposals in rounds that peers may come to. -/
def Votable (key : PublicKey) (candidate : Candidate) : Prop :=
  proposals.Proposed key candidate ∧ proposals.Open candidate.round

variable {proposals}

theorem proposed_propose (member : roster.Member) (round : Round)
    : proposals.Proposed member.1 (proposals.propose member round) :=
  ⟨member, rfl, by rw [proposals.ofRound]⟩

/-- Nobody is faulty, since each peer proposes one candidate for a round. -/
theorem tolerates (round : Round) : roster.Tolerates round proposals.Proposed ∅ := by
  refine ⟨Finset.card_empty.trans_le (Nat.zero_le _), ?_⟩
  rintro key - - candidate other ⟨member, own, proposed⟩ ⟨member', own', proposed'⟩ round round'
  obtain rfl : member = member' := Subtype.ext (own.trans own'.symm)
  rw [proposed, proposed', round, round']

theorem proposed_of_votable {choices : Choices} {round : Round}
    (backed : choices.Backed proposals.Votable round)
    : choices.Backed proposals.Proposed round :=
  ⟨fun key candidate choice => (backed.signed key candidate choice).1, backed.ofRound⟩

theorem open_of_votable {choices : Choices} {round : Round} {key : PublicKey}
    {candidate : Candidate} (backed : choices.Backed proposals.Votable round)
    (choice : choices key = some candidate)
    : proposals.Open round :=
  backed.ofRound key candidate choice ▸ (backed.signed key candidate choice).2

/-- Before a retry all earlier rounds of the height were deadlocked; by induction on the retries. -/
theorem Open.exists_deadlock {round : Round} (opened : proposals.Open round) {earlier : Round}
    (height : earlier.height = round.height) (before : earlier.counter < round.counter)
    : ∃ choices : Choices,
        choices.Backed proposals.Proposed earlier ∧ roster.Deadlocked choices := by
  induction opened with
  | first height => exact absurd before (by simp)
  | @retry round next choices _ proposed deadlock following ih =>
      obtain ⟨same, successor⟩ := Round.nextCounter_eq_ok following
      by_cases sooner : earlier.counter < round.counter
      · exact ih (height.trans same) sooner
      · rw [UInt64.lt_iff_toNat_lt] at before sooner
        obtain rfl : earlier = round := Round.eq_of_height (height.trans same) (by omega)
        exact ⟨choices, proposed, deadlock⟩

/-- Nothing is carried in a round whose retry peers may have come to, for lack of turncoats. -/
theorem Open.not_carries {round : Round} (opened : proposals.Open round) {earlier : Round}
    (height : earlier.height = round.height) (before : earlier.counter < round.counter)
    {choices : Choices} (backed : choices.Backed proposals.Proposed earlier)
    (candidate : Candidate)
    : ¬ roster.Carries choices candidate := by
  intro carries
  obtain ⟨stuck, proposed, deadlock⟩ := opened.exists_deadlock height before
  obtain ⟨key, turned⟩ := deadlock.turncoats_nonempty carries
  exact absurd ((tolerates earlier).turncoats_subset proposed backed candidate turned) (by simp)

/-- All that is carried at a height is one candidate of one round. -/
theorem carried_eq_of_height {choices choices' : Choices} {round round' : Round}
    {candidate candidate' : Candidate} (backed : choices.Backed proposals.Votable round)
    (backed' : choices'.Backed proposals.Votable round') (height : round.height = round'.height)
    (carries : roster.Carries choices candidate) (carries' : roster.Carries choices' candidate')
    : round = round' ∧ candidate = candidate' := by
  obtain ⟨key, -, choice⟩ := carries.exists_supporter
  obtain ⟨key', -, choice'⟩ := carries'.exists_supporter
  have opened := open_of_votable backed choice
  have opened' := open_of_votable backed' choice'
  have proposed := proposed_of_votable backed
  have proposed' := proposed_of_votable backed'
  rcases Nat.lt_trichotomy round.counter.toNat round'.counter.toNat with before | same | after
  · exact absurd carries (opened'.not_carries height before proposed candidate)
  · obtain rfl : round = round' := Round.eq_of_height height same
    exact ⟨rfl, (tolerates round).carried_eq proposed proposed' carries carries'⟩
  · exact absurd carries' (opened.not_carries height.symm after proposed' candidate')

end Proposals

end Quorum
