import Quorum.Proofs.Poll.Electorate

/-! What a poll comes to in the end. A rejection stands whatever votes are still to come, and once all
peers of the electorate have voted there is an outcome.
-/

namespace Quorum

-----------------------------------------------------------------------------------------
-- Nobody is outstanding
-----------------------------------------------------------------------------------------

theorem Supermajority.threshold_le {peers : Nat} (some_peer : 0 < peers)
    : threshold peers ≤ peers := by
  unfold threshold
  omega

/-- Once all peers have made their choice, either a candidate is carried or there is a deadlock. -/
theorem Roster.carries_or_deadlocked {roster : Roster} {choices : Choices}
    (complete : ∀ key, roster.Has key → choices key ≠ none)
    : (∃ candidate, roster.Carries choices candidate) ∨ roster.Deadlocked choices := by
  have everyone : roster.participants choices = roster.keys :=
    Finset.filter_true_of_mem fun key member => complete key (mem_keys.mp member)
  have nobody_left : roster.outstanding choices = 0 := by
    rw [outstanding, everyone, card_keys, Nat.sub_self]
  by_cases carried : ∃ candidate, roster.Carries choices candidate
  · exact .inl carried
  · refine .inr ⟨?_, fun candidate => ?_⟩
    · rw [everyone, card_keys]
      exact Supermajority.threshold_le roster.size_pos
    · rw [nobody_left, Nat.add_zero]
      exact Nat.lt_of_not_le fun carries => carried ⟨candidate, carries⟩

namespace Electorate

variable {electorate : Electorate} {choices : Choices}

theorem has_of_includes {roster : Roster} {key : PublicKey} (included : electorate.Includes roster)
    (has : roster.Has key)
    : electorate.Has key := by
  rcases included with rfl | known
  · exact .inl has
  · exact .inr ⟨roster, known, has⟩

/-- Once all peers have made their choice, something is decided. -/
theorem exists_decides (complete : ∀ key, electorate.Has key → choices key ≠ none)
    : ∃ decision, electorate.Decides choices decision := by
  by_cases carried
    : ∃ roster, electorate.Includes roster ∧ ∃ candidate, roster.Carries choices candidate
  · obtain ⟨roster, included, candidate, carries⟩ := carried
    exact ⟨_, .accepted included carries⟩
  · refine ⟨_, .rejected fun roster included => ?_⟩
    have voted (key : PublicKey) (has : roster.Has key) : choices key ≠ none :=
      complete key (has_of_includes included has)
    refine (Roster.carries_or_deadlocked voted).resolve_left fun carries => ?_
    exact carried ⟨roster, included, carries⟩

end Electorate

theorem Candidate.accepted_fst_ne (candidate : Candidate) : candidate.accepted.1 ≠ .reject := by
  unfold accepted
  split <;> nofun

namespace Poll

-----------------------------------------------------------------------------------------
-- Later polls
-----------------------------------------------------------------------------------------

/-- What a poll can become: votes come in, its decision is fixed, a report is noted. -/
inductive Leads (poll : Poll) : Poll → Prop
  | refl : poll.Leads poll
  | insert {later : Poll} (leads : poll.Leads later) (votes : List Vote)
    : poll.Leads (later.insert votes).1
  | freeze {later : Poll} (leads : poll.Leads later) (outcome : Outcome)
    : poll.Leads (later.freeze outcome)
  | report {later : Poll} (leads : poll.Leads later) : poll.Leads later.reportFuture.1

/-- The poll of a round in the course of its life. -/
def Reachable (round : Round) (poll : Poll) : Prop :=
  (empty round).Leads poll

namespace Leads

variable {poll later : Poll}

theorem round_eq (leads : poll.Leads later) : later.round = poll.round := by
  induction leads with
  | refl => rfl
  | insert _ votes ih => rw [round_insert, ih]
  | freeze _ _ ih => exact ih
  | report _ ih => exact ih

theorem coherent (leads : poll.Leads later) (coherent : poll.Coherent) : later.Coherent := by
  induction leads with
  | refl => exact coherent
  | insert _ votes ih => exact ih.insert votes
  | freeze _ _ ih => exact ih.congr rfl rfl rfl
  | report _ ih => exact ih.congr rfl rfl rfl

/-- The first vote of a key counts for good. -/
theorem extends_choices (leads : poll.Leads later) : later.choices.Extends poll.choices := by
  induction leads with
  | refl => exact fun _ _ choice => choice
  | insert _ votes ih =>
      exact fun key candidate choice =>
        choices_insert_extends _ votes key candidate (ih key candidate choice)
  | freeze _ _ ih => exact ih
  | report _ ih => exact ih

end Leads

section

variable {round : Round} {poll : Poll} {electorate : Electorate}

theorem Reachable.coherent (reachable : Reachable round poll) : poll.Coherent :=
  Leads.coherent reachable (coherent_empty round)

theorem Reachable.round_eq (reachable : Reachable round poll) : poll.round = round :=
  Leads.round_eq reachable

/-- Votes reject exactly if each roster is deadlocked. -/
theorem Coherent.rejects_iff (coherent : poll.Coherent)
    : (∃ outcome, poll.outcome? electorate = some outcome ∧ outcome.kind = .reject)
      ↔ ∀ roster, electorate.Includes roster → roster.Deadlocked poll.choices := by
  constructor
  · rintro ⟨outcome, reached, kind⟩
    have decides := coherent.decides_of_outcome?_under reached
    generalize equal : outcome.decision = decision at decides
    cases decides with
    | @accepted _ candidate _ _ =>
        have accepted : outcome.kind = candidate.accepted.1 := congrArg Prod.fst equal
        exact absurd (accepted.symm.trans kind) candidate.accepted_fst_ne
    | rejected deadlock => exact deadlock
  · intro deadlock
    obtain ⟨outcome, reached⟩ := coherent.exists_outcome?_under (.rejected deadlock)
    have decides := coherent.decides_of_outcome?_under reached
    exact ⟨outcome, reached, congrArg Prod.fst (decides.eq_of_deadlocked deadlock)⟩

/-- A rejection stands in every later poll. Once every peer of the electorate has a counted vote, the
votes commit, reject or find nothing. Both hold whatever the votes are for and whoever else voted.
-/
theorem rejection_stands_and_complete_poll_concludes (reachable : Reachable round poll)
    (electorate : Electorate)
    : (∀ outcome, poll.outcome? electorate = some outcome → outcome.kind = .reject →
        ∀ later, poll.Leads later →
          ∃ again, later.outcome? electorate = some again ∧ again.kind = .reject)
      ∧ ((∀ key, electorate.Has key → ∃ vote ∈ poll.voters, vote.key = key) →
          ∃ outcome, poll.outcome? electorate = some outcome ∧ outcome.Terminal) := by
  have coherent := reachable.coherent
  constructor
  · intro outcome reached kind later leads
    have deadlock := coherent.rejects_iff.mp ⟨outcome, reached, kind⟩
    refine (leads.coherent coherent).rejects_iff.mpr fun roster included => ?_
    exact (deadlock roster included).mono leads.extends_choices
  · intro complete
    have chosen (key : PublicKey) (has : electorate.Has key) : poll.choices key ≠ none := by
      obtain ⟨vote, member, own⟩ := complete key has
      exact Option.ne_none_iff_exists'.mpr
        ⟨vote.candidate, coherent.choices_eq_some.mpr ⟨vote, member, own, rfl⟩⟩
    obtain ⟨decision, decides⟩ := Electorate.exists_decides chosen
    obtain ⟨outcome, reached⟩ := coherent.exists_outcome?_under decides
    exact ⟨outcome, reached, (concludes_of_outcome? reached).terminal⟩

end

/-- Five of six peers have voted, and no roster can agree on a block any more. -/
def deadlockedVotes : List Vote :=
  [.numbered 1 (.numbered 1), .numbered 2 (.numbered 2), .numbered 3 (.numbered 1),
    .numbered 4 (.numbered 2), .numbered 5 (.numbered 3)]

/-- A peer changes its mind, the last one votes, and so does a stranger. -/
def lateVotes : List Vote :=
  [.numbered 3 (.numbered 2), .numbered 6 (.numbered 1), .numbered 9 (.numbered 1)]

theorem rejection_stands_after_late_votes
    : let early := ofVotes ⟨5, 0⟩ deadlockedVotes
      let later := (early.insert lateVotes).1
      (∃ outcome, early.outcome? .six = some outcome ∧ outcome.kind = .reject)
      ∧ (∃ again, later.outcome? .six = some again ∧ again.kind = .reject)
      ∧ (∀ key, Electorate.six.Has key → ∃ vote ∈ later.voters, vote.key = key)
      ∧ ∃ outcome, later.outcome? .six = some outcome ∧ outcome.Terminal := by
  intro early later
  have start : Reachable ⟨5, 0⟩ early := .insert .refl deadlockedVotes
  have finish : Reachable ⟨5, 0⟩ later := .insert start lateVotes
  have rejected : (early.outcome? .six).map Outcome.kind = some .reject := by decide
  obtain ⟨outcome, reached, kind⟩ := Option.map_eq_some_iff.mp rejected
  have complete (key : PublicKey) (has : Electorate.six.Has key)
      : ∃ vote ∈ later.voters, vote.key = key := by
    rcases has with ⟨peer, member, rfl⟩ | ⟨roster, known, peer, member, rfl⟩
    · revert peer
      decide
    · obtain rfl := Option.some.inj known
      revert peer
      decide
  refine ⟨⟨outcome, reached, kind⟩, ?_, complete, ?_⟩
  · exact (rejection_stands_and_complete_poll_concludes start .six).1 outcome reached kind later
      (.insert .refl lateVotes)
  · exact (rejection_stands_and_complete_poll_concludes finish .six).2 complete

end Poll

end Quorum
