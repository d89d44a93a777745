import Quorum.Proofs.Poll.Decision

/-! Polls under an electorate of two rosters. A candidate that either roster carries is accepted, a
rejection takes all rosters. Two candidates may be accepted only if each roster carries one of them.
-/

namespace Quorum

namespace Electorate

/-- The roster is one of those that may decide. -/
def Includes (electorate : Electorate) (roster : Roster) : Prop :=
  electorate.primary = roster ∨ electorate.alternative = some roster

/-- What the choices of the keys decide under an electorate. -/
inductive Decides (electorate : Electorate) (choices : Choices)
    : OutcomeKind × Option Candidate → Prop
  | accepted {roster : Roster} {candidate : Candidate} (included : electorate.Includes roster)
    (carries : roster.Carries choices candidate)
    : electorate.Decides choices candidate.accepted
  | rejected (deadlock : ∀ roster, electorate.Includes roster → roster.Deadlocked choices)
    : electorate.Decides choices (.reject, none)

/-- The primary carries one candidate, and the alternative another one. -/
structure Contested (electorate : Electorate) (choices : Choices) (first second : Candidate)
    : Prop where
  primary : electorate.primary.Carries choices first
  alternative : ∃ roster, electorate.alternative = some roster ∧ roster.Carries choices second
  differ : first ≠ second

section

variable {electorate : Electorate} {choices : Choices}

theorem includes_iff {roster : Roster}
    : electorate.Includes roster ↔ ∃ side, electorate.roster? side = some roster := by
  constructor
  · rintro (rfl | known)
    · exact ⟨.primary, rfl⟩
    · exact ⟨.alternative, known⟩
  · rintro ⟨_ | _, seat⟩
    · exact .inl (Option.some.inj seat)
    · exact .inr seat

theorem Decides.mono {later : Choices} {decision : OutcomeKind × Option Candidate}
    (extends_choices : later.Extends choices) (decides : electorate.Decides choices decision)
    : electorate.Decides later decision := by
  cases decides with
  | accepted included carries => exact .accepted included (carries.mono extends_choices)
  | rejected deadlock =>
      exact .rejected fun roster included => (deadlock roster included).mono extends_choices

/-- Only the choices of the keys of both rosters matter. -/
theorem Decides.congr {other : Choices} {decision : OutcomeKind × Option Candidate}
    (same : ∀ roster, electorate.Includes roster → ∀ key, roster.Has key → choices key = other key)
    (decides : electorate.Decides choices decision)
    : electorate.Decides other decision := by
  cases decides with
  | accepted included carries => exact .accepted included (carries.congr (same _ included))
  | rejected deadlock =>
      exact .rejected fun roster included => (deadlock roster included).congr (same roster included)

/-- Where a candidate is carried, some candidate is accepted. -/
theorem Decides.exists_accepted {roster : Roster} {candidate : Candidate}
    {decision : OutcomeKind × Option Candidate} (included : electorate.Includes roster)
    (carries : roster.Carries choices candidate) (decides : electorate.Decides choices decision)
    : ∃ roster winner, electorate.Includes roster ∧ roster.Carries choices winner
        ∧ decision = winner.accepted := by
  cases decides with
  | accepted included carries => exact ⟨_, _, included, carries, rfl⟩
  | rejected deadlock => exact absurd carries (deadlock roster included).not_carries

/-- Two rosters carry the same candidate, unless it is contested. -/
theorem eq_of_uncontested {roster other : Roster} {first second : Candidate}
    (uncontested : ∀ one two, ¬ electorate.Contested choices one two)
    (included : electorate.Includes roster) (carries : roster.Carries choices first)
    (included' : electorate.Includes other) (carries' : other.Carries choices second)
    : first = second := by
  by_contra differ
  rcases included with rfl | alternative
  · rcases included' with rfl | alternative'
    · exact differ (carries.unique carries')
    · exact uncontested first second ⟨carries, ⟨other, alternative', carries'⟩, differ⟩
  · rcases included' with rfl | alternative'
    · exact uncontested second first ⟨carries', ⟨roster, alternative, carries⟩, Ne.symm differ⟩
    · obtain rfl := Option.some.inj (alternative.symm.trans alternative')
      exact differ (carries.unique carries')

/-- A deadlock of all rosters decides to reject, and nothing else. -/
theorem Decides.eq_of_deadlocked {decision : OutcomeKind × Option Candidate}
    (decides : electorate.Decides choices decision)
    (deadlock : ∀ roster, electorate.Includes roster → roster.Deadlocked choices)
    : decision = (.reject, none) := by
  cases decides with
  | accepted included carries => exact absurd carries (deadlock _ included).not_carries
  | rejected _ => rfl

/-- Unless two candidates contest the round, choices decide at most one thing. -/
theorem Decides.unique {first second : OutcomeKind × Option Candidate}
    (uncontested : ∀ one two, ¬ electorate.Contested choices one two)
    (decides : electorate.Decides choices first) (decides' : electorate.Decides choices second)
    : first = second := by
  cases decides with
  | accepted included carries =>
      obtain ⟨other, winner, included', carries', rfl⟩ := decides'.exists_accepted included carries
      exact congrArg Candidate.accepted
        (eq_of_uncontested uncontested included carries included' carries')
  | rejected deadlock => exact (decides'.eq_of_deadlocked deadlock).symm

/-- Of two candidates that contest a round one is accepted. -/
theorem Contested.accepted {first second : Candidate}
    {decision : OutcomeKind × Option Candidate}
    (contested : electorate.Contested choices first second)
    (decides : electorate.Decides choices decision)
    : decision = first.accepted ∨ decision = second.accepted := by
  obtain ⟨carries, ⟨alternative, known, carries'⟩, -⟩ := contested
  obtain ⟨roster, winner, included, wins, rfl⟩ := decides.exists_accepted (.inl rfl) carries
  rcases included with rfl | same
  · exact .inl (congrArg Candidate.accepted (wins.unique carries))
  · obtain rfl := Option.some.inj (known.symm.trans same)
    exact .inr (congrArg Candidate.accepted (wins.unique carries'))

end

end Electorate

-----------------------------------------------------------------------------------------
-- The outcome under two rosters
-----------------------------------------------------------------------------------------

namespace Poll

section

variable {poll : Poll} {electorate : Electorate}

/-- An outcome decides what the choices of the keys decide under both rosters. -/
theorem Coherent.decides_of_outcome?_under (coherent : poll.Coherent) {outcome : Outcome}
    (reached : poll.outcome? electorate = some outcome)
    : electorate.Decides poll.choices outcome.decision := by
  cases outcome?_eq_some_iff.mp reached with
  | @decided side roster kind candidate votes seat verdict _ =>
      obtain ⟨carries, same⟩ := coherent.carries_of_verdict verdict
      rw [Outcome.decision, same]
      exact .accepted (Electorate.includes_iff.mpr ⟨side, seat⟩) carries
  | rejected verdict others =>
      refine .rejected fun roster included => ?_
      rcases included with rfl | known
      · exact coherent.deadlocked_of_verdict verdict
      · obtain ⟨_, verdict'⟩ := others roster known
        exact coherent.deadlocked_of_verdict verdict'

/-- Whatever the choices of the keys decide under both rosters, there is an outcome. -/
theorem Coherent.exists_outcome?_under (coherent : poll.Coherent)
    {decision : OutcomeKind × Option Candidate}
    (decides : electorate.Decides poll.choices decision)
    : ∃ outcome, poll.outcome? electorate = some outcome := by
  cases decides with
  | accepted included carries =>
      obtain ⟨side, seat⟩ := Electorate.includes_iff.mp included
      obtain ⟨_, _, _, verdict⟩ := coherent.verdict_of_carries carries
      exact exists_outcome?_of_decided seat verdict
  | rejected deadlock =>
      obtain ⟨_, verdict⟩ := coherent.verdict_of_deadlocked (deadlock _ (.inl rfl))
      refine ⟨_, outcome?_eq_some_iff.mpr (.rejected verdict fun roster known => ?_)⟩
      exact coherent.verdict_of_deadlocked (deadlock roster (.inr known))

end

end Poll

-----------------------------------------------------------------------------------------
-- A small electorate
-----------------------------------------------------------------------------------------

/-- Two of the four peers give way to two new ones. -/
def Roster.newer : Roster where
  peers := [⟨"c", .numbered 3⟩, ⟨"d", .numbered 4⟩, ⟨"e", .numbered 5⟩, ⟨"f", .numbered 6⟩]
  nonempty := by decide
  ascending := by decide +kernel
  distinctKeys := by decide

theorem Roster.ofPeers_newer : ofPeers newer.peers = .ok newer :=
  newer.ofPeers_peers (by decide +kernel)

def Electorate.six : Electorate :=
  ⟨.four, some .newer⟩

end Quorum
