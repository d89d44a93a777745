import Quorum.Proofs.Poll.Counting

/-! The verdict of a poll under a roster is what the choices of the keys decide, and the outcome under
an electorate is read off the verdicts. Under a single roster it is therefore reached at most once,
and neither later votes nor their order change it.
-/

namespace Quorum

/-- What an outcome decides: its kind, and for a commit the winner. -/
def Outcome.decision (outcome : Outcome) : OutcomeKind × Option Candidate :=
  (outcome.kind, outcome.winner)

/-- The roster on a side. -/
def Electorate.roster? (electorate : Electorate) : Side → Option Roster
  | .primary => some electorate.primary
  | .alternative => electorate.alternative

theorem Electorate.eq_of_seat {roster other : Roster} {side : Side}
    (seat : (⟨roster, none⟩ : Electorate).roster? side = some other)
    : roster = other := by
  cases side with
  | primary => exact Option.some.inj seat
  | alternative => cases seat

/-- What it is to accept a candidate: a commit of its block, or nothing if it has none. -/
def Candidate.accepted (candidate : Candidate) : OutcomeKind × Option Candidate :=
  if candidate.IsEmpty then (.nothing, none) else (.commit, some candidate)

/-- Candidates of one round are accepted each in its own way. -/
theorem Candidate.accepted_inj {first second : Candidate} (same : first.round = second.round)
    : first.accepted = second.accepted ↔ first = second := by
  refine ⟨fun equal => ?_, congrArg accepted⟩
  unfold accepted at equal
  by_cases blank : first.IsEmpty <;> by_cases blank' : second.IsEmpty <;>
    simp only [blank, blank', if_true, if_false, Prod.mk.injEq, reduceCtorEq, and_false, true_and,
      Option.some.injEq] at equal
  · rw [Candidate.isEmpty_iff.mp blank, Candidate.isEmpty_iff.mp blank', same]
  · exact equal

/-- A roster decides to accept the candidate that it carries. -/
theorem Roster.Decides.of_carries {roster : Roster} {choices : Choices} {round : Round}
    {candidate : Candidate} (carries : roster.Carries choices candidate)
    (own : candidate.round = round)
    : roster.Decides choices round candidate.accepted.1 candidate.accepted.2 := by
  unfold Candidate.accepted
  by_cases blank : candidate.IsEmpty
  · rw [if_pos blank]
    rw [Candidate.isEmpty_iff.mp blank, own] at carries
    exact .nothing carries
  · rw [if_neg blank]
    exact .commit blank carries

namespace Poll

-----------------------------------------------------------------------------------------
-- The winning pile
-----------------------------------------------------------------------------------------

/-- The count of supporters never exceeds the roster, so that reaching a supermajority is being
carried.
-/
theorem reached_iff {roster : Roster} {choices : Choices} {candidate : Candidate}
    : Supermajority.Reached (roster.supporters choices candidate).card roster.size
      ↔ roster.Carries choices candidate :=
  ⟨fun reached => reached.2.2,
    fun carries => ⟨roster.size_pos, roster.card_supporters_le choices candidate, carries⟩⟩

/-- A pile wins by a supermajority; those with a block come first. -/
theorem winner?_eq_or (poll : Poll) (roster : Roster)
    : poll.winner? roster
      = (poll.piles.find? fun pile => decide (¬ pile.candidate.IsEmpty)
          && decide (Supermajority.Reached (pile.countIn roster) roster.size)).or
        (poll.piles.find? fun pile => decide pile.candidate.IsEmpty
          && decide (Supermajority.Reached (pile.countIn roster) roster.size)) := by
  unfold winner?
  rw [Option.orElse_eq_orElse, Option.orElse_eq_or]

theorem of_winner? {poll : Poll} {roster : Roster} {pile : Pile}
    (winner : poll.winner? roster = some pile)
    : pile ∈ poll.piles ∧ Supermajority.Reached (pile.countIn roster) roster.size := by
  rw [winner?_eq_or] at winner
  rcases Option.or_eq_some_iff.mp winner with block | ⟨-, blank⟩
  · have wins := List.find?_some block
    exact ⟨List.mem_of_find?_eq_some block, by simp_all⟩
  · have wins := List.find?_some blank
    exact ⟨List.mem_of_find?_eq_some blank, by simp_all⟩

/-- The winning pile is one whose candidate is carried. -/
theorem Coherent.carries_of_winner? {poll : Poll} (coherent : poll.Coherent) {roster : Roster}
    {pile : Pile} (winner : poll.winner? roster = some pile)
    : roster.Carries poll.choices pile.candidate := by
  obtain ⟨member, reached⟩ := of_winner? winner
  rw [coherent.countIn_eq roster member] at reached
  exact reached_iff.mp reached

/-- A carried candidate is one of the round, since somebody voted for it. -/
theorem Coherent.round_of_carries {poll : Poll} (coherent : poll.Coherent) {roster : Roster}
    {candidate : Candidate} (carries : roster.Carries poll.choices candidate)
    : candidate.round = poll.round := by
  obtain ⟨key, -, choice⟩ := carries.exists_supporter
  obtain ⟨vote, member, -, rfl⟩ := coherent.choices_eq_some.mp choice
  exact coherent.ofRound vote member

/-- Without a winning pile no candidate is carried; a carried one has supporters and so a pile. -/
theorem Coherent.not_carries_of_winner? {poll : Poll} (coherent : poll.Coherent)
    {roster : Roster} (none_wins : poll.winner? roster = none) (candidate : Candidate)
    : ¬ roster.Carries poll.choices candidate := by
  intro carries
  obtain ⟨key, -, choice⟩ := carries.exists_supporter
  obtain ⟨pile, member, rfl⟩ := coherent.exists_pile choice
  have wins : Supermajority.Reached (pile.countIn roster) roster.size := by
    rw [coherent.countIn_eq roster member]
    exact reached_iff.mpr carries
  rw [winner?_eq_or] at none_wins
  obtain ⟨no_block, no_blank⟩ := Option.or_eq_none_iff.mp none_wins
  by_cases blank : pile.candidate.IsEmpty
  · simpa [blank, wins] using List.find?_eq_none.mp no_blank pile member
  · simpa [blank, wins] using List.find?_eq_none.mp no_block pile member

/-- The leading count is the greatest support, since every choice has a pile. -/
theorem Coherent.max?_countIn {poll : Poll} (coherent : poll.Coherent) (roster : Roster)
    : (poll.piles.map (·.countIn roster)).max?.getD 0 = roster.leading poll.choices := by
  apply Nat.le_antisymm
  · refine max?_getD_le_iff.mpr (List.forall_mem_map.mpr fun pile member => ?_)
    rw [coherent.countIn_eq roster member]
    exact Roster.leading_le_iff.mp (Nat.le_refl _) pile.candidate
  · refine Roster.leading_le_iff.mpr fun candidate => ?_
    refine Roster.card_supporters_le_of_choice fun key _ choice => ?_
    obtain ⟨pile, member, rfl⟩ := coherent.exists_pile choice
    rw [← coherent.countIn_eq roster member]
    exact List.le_max?_getD_of_mem (List.mem_map_of_mem member)

/-- No pile can win any more exactly in a deadlock. -/
theorem Coherent.outOfReach_iff {poll : Poll} (coherent : poll.Coherent) (roster : Roster)
    : Supermajority.OutOfReach ((poll.piles.map (·.countIn roster)).max?.getD 0)
          (poll.piles.map (·.countIn roster)).sum roster.size
      ↔ roster.Deadlocked poll.choices := by
  rw [coherent.max?_countIn, coherent.sum_countIn, Roster.outOfReach_iff]

-----------------------------------------------------------------------------------------
-- The verdict under a roster
-----------------------------------------------------------------------------------------

/-- How the verdict under a roster comes about: a pile wins, no candidate can win any more, or
neither.
-/
inductive Judges (poll : Poll) (roster : Roster) : Verdict → Prop
  | decided {pile : Pile} (winner : poll.winner? roster = some pile)
    : poll.Judges roster
        (.decided (if pile.candidate.IsEmpty then .nothing else .commit) pile.candidate
          (pile.votesIn roster))
  | rejected (nobody : poll.winner? roster = none)
    (out
      : Supermajority.OutOfReach ((poll.piles.map (·.countIn roster)).max?.getD 0)
          (poll.piles.map (·.countIn roster)).sum roster.size)
    : poll.Judges roster (.rejected (poll.piles.flatMap (·.votesIn roster)))
  | undecided (nobody : poll.winner? roster = none)
    (reach
      : ¬ Supermajority.OutOfReach ((poll.piles.map (·.countIn roster)).max?.getD 0)
          (poll.piles.map (·.countIn roster)).sum roster.size)
    : poll.Judges roster .undecided

theorem judges (poll : Poll) (roster : Roster) : poll.Judges roster (poll.verdict roster) := by
  unfold verdict
  split
  · next winner => exact .decided winner
  · next nobody =>
      simp only
      split
      · next out => exact .rejected nobody out
      · next reach => exact .undecided nobody reach

theorem verdict_empty (round : Round) (roster : Roster)
    : (empty round).verdict roster = .undecided := by
  simp [verdict, winner?, empty, Supermajority.OutOfReach, Supermajority.threshold]

section

variable {poll : Poll} {roster : Roster} {kind : OutcomeKind} {candidate : Candidate}
  {votes : List Vote}

theorem kind_of_verdict (verdict : poll.verdict roster = .decided kind candidate votes)
    : kind = .commit ∨ kind = .nothing := by
  cases verdict ▸ poll.judges roster with
  | decided _ =>
      split
      · exact .inr rfl
      · exact .inl rfl

/-- A verdict for a candidate accepts one that the roster carries. -/
theorem Coherent.carries_of_verdict (coherent : poll.Coherent)
    (verdict : poll.verdict roster = .decided kind candidate votes)
    : roster.Carries poll.choices candidate
      ∧ (kind, if kind = .commit then some candidate else none) = candidate.accepted := by
  cases verdict ▸ poll.judges roster with
  | decided winner =>
      refine ⟨coherent.carries_of_winner? winner, ?_⟩
      unfold Candidate.accepted
      split <;> rfl

theorem Coherent.deadlocked_of_verdict (coherent : poll.Coherent)
    (verdict : poll.verdict roster = .rejected votes)
    : roster.Deadlocked poll.choices := by
  cases verdict ▸ poll.judges roster with
  | rejected _ out => exact (coherent.outOfReach_iff roster).mp out

/-- Where a roster carries a candidate, its verdict is for one. -/
theorem Coherent.verdict_of_carries (coherent : poll.Coherent)
    (carries : roster.Carries poll.choices candidate)
    : ∃ kind winner votes, poll.verdict roster = .decided kind winner votes := by
  generalize told : poll.verdict roster = verdict
  cases told ▸ poll.judges roster with
  | decided _ => exact ⟨_, _, _, rfl⟩
  | rejected nobody _ | undecided nobody _ =>
      exact absurd carries (coherent.not_carries_of_winner? nobody candidate)

/-- In a deadlock a roster's verdict is to reject. -/
theorem Coherent.verdict_of_deadlocked (coherent : poll.Coherent)
    (deadlock : roster.Deadlocked poll.choices)
    : ∃ votes, poll.verdict roster = .rejected votes := by
  generalize told : poll.verdict roster = verdict
  cases told ▸ poll.judges roster with
  | decided winner => exact absurd (coherent.carries_of_winner? winner) deadlock.not_carries
  | rejected _ _ => exact ⟨_, rfl⟩
  | undecided _ reach => exact absurd ((coherent.outOfReach_iff roster).mpr deadlock) reach

/-- A decision for a candidate rests on the peers' votes for it. -/
theorem Coherent.votes_of_decided (coherent : poll.Coherent)
    (verdict : poll.verdict roster = .decided kind candidate votes)
    : votes
      = poll.voters.filter fun vote =>
          decide (roster.Has vote.key) && decide (vote.candidate = candidate) := by
  cases verdict ▸ poll.judges roster with
  | @decided pile winner =>
      rw [Pile.votesIn, coherent.sorted pile (of_winner? winner).1, List.filter_filter]

theorem Coherent.mem_votes_of_decided (coherent : poll.Coherent)
    (verdict : poll.verdict roster = .decided kind candidate votes) {vote : Vote}
    : vote ∈ votes
      ↔ vote ∈ poll.voters ∧ roster.Has vote.key ∧ vote.candidate = candidate := by
  rw [coherent.votes_of_decided verdict]
  simp

/-- A rejection lists all counted votes of peers. -/
theorem Coherent.votes_of_rejected (coherent : poll.Coherent)
    (verdict : poll.verdict roster = .rejected votes)
    : votes.Perm (poll.voters.filter fun vote => decide (roster.Has vote.key)) := by
  cases verdict ▸ poll.judges roster with
  | rejected _ _ =>
      have listed
          : poll.piles.flatMap (·.votesIn roster)
            = poll.votes.filter fun vote => decide (roster.Has vote.key) := by
        rw [Poll.votes, List.filter_flatMap]
        rfl
      rw [listed]
      exact coherent.votes_perm.filter _

end

-----------------------------------------------------------------------------------------
-- How an outcome comes about
-----------------------------------------------------------------------------------------

/-- What the verdicts under the rosters of an electorate imply. A decision of the alternative counts
if the primary has none, and a rejection if no roster objects.
-/
inductive Implies (poll : Poll) (electorate : Electorate) : Outcome → Prop
  | decided {side : Side} {roster : Roster} {kind : OutcomeKind} {candidate : Candidate}
    {votes : List Vote} (seat : electorate.roster? side = some roster)
    (verdict : poll.verdict roster = .decided kind candidate votes)
    (first
      : side = .alternative → ∀ kind candidate votes,
          poll.verdict electorate.primary ≠ .decided kind candidate votes)
    : poll.Implies electorate
        ⟨kind, poll.round, if kind = .commit then some candidate else none, votes, side⟩
  | rejected {votes : List Vote} (verdict : poll.verdict electorate.primary = .rejected votes)
    (others
      : ∀ roster, electorate.alternative = some roster →
          ∃ votes, poll.verdict roster = .rejected votes)
    : poll.Implies electorate ⟨.reject, poll.round, none, votes, .primary⟩

theorem outcome?_eq_some_iff {poll : Poll} {electorate : Electorate} {outcome : Outcome}
    : poll.outcome? electorate = some outcome ↔ poll.Implies electorate outcome := by
  constructor
  · intro reached
    unfold outcome? at reached
    split at reached
    · next verdict =>
        cases reached
        exact .decided rfl verdict nofun
    · next verdict undecided =>
        cases reached
        obtain ⟨roster, known, verdict⟩ := Option.map_eq_some_iff.mp verdict
        exact .decided known verdict fun _ => undecided
    · next verdict alone =>
        cases reached
        refine .rejected verdict fun roster known => ?_
        simp [known] at alone
    · next verdict other =>
        cases reached
        obtain ⟨roster, known, verdict'⟩ := Option.map_eq_some_iff.mp other
        refine .rejected verdict fun roster' known' => ?_
        obtain rfl := Option.some.inj (known.symm.trans known')
        exact ⟨_, verdict'⟩
    · cases reached
  · intro implied
    unfold outcome?
    cases implied with
    | @decided side roster kind candidate votes seat verdict first =>
        cases side with
        | primary =>
            obtain rfl : electorate.primary = roster := Option.some.inj seat
            rw [verdict]
        | alternative =>
            have known : electorate.alternative = some roster := seat
            rw [known, Option.map_some, verdict]
            cases primary : poll.verdict electorate.primary with
            | decided kind candidate votes => exact absurd primary (first rfl _ _ _)
            | rejected _ | undecided => rfl
    | rejected verdict others =>
        rw [verdict]
        cases known : electorate.alternative with
        | none => rfl
        | some roster =>
            obtain ⟨_, verdict'⟩ := others roster known
            rw [Option.map_some, verdict']

/-- A decision under any roster leads to an outcome, if only to the primary's own one. -/
theorem exists_outcome?_of_decided {poll : Poll} {electorate : Electorate} {side : Side}
    {roster : Roster} {kind : OutcomeKind} {candidate : Candidate} {votes : List Vote}
    (seat : electorate.roster? side = some roster)
    (verdict : poll.verdict roster = .decided kind candidate votes)
    : ∃ outcome, poll.outcome? electorate = some outcome := by
  by_cases first
    : ∃ kind candidate votes, poll.verdict electorate.primary = .decided kind candidate votes
  · obtain ⟨_, _, _, verdict'⟩ := first
    have own : electorate.roster? .primary = some electorate.primary := rfl
    exact ⟨_, outcome?_eq_some_iff.mpr (.decided own verdict' nofun)⟩
  · refine ⟨_, outcome?_eq_some_iff.mpr (.decided seat verdict ?_)⟩
    exact fun _ kind' candidate' votes' verdict' =>
      first ⟨kind', candidate', votes', verdict'⟩

/-- What the votes of a poll imply ends its round, and a commit names its winner. -/
structure Concludes (poll : Poll) (outcome : Outcome) : Prop where
  round : outcome.round = poll.round
  terminal : outcome.Terminal
  winner : outcome.kind = .commit → ∃ candidate, outcome.winner = some candidate

theorem concludes_of_outcome? {poll : Poll} {electorate : Electorate} {outcome : Outcome}
    (reached : poll.outcome? electorate = some outcome)
    : poll.Concludes outcome := by
  cases outcome?_eq_some_iff.mp reached with
  | @decided side roster kind candidate votes _ verdict _ =>
      refine ⟨rfl, ?_, ?_⟩
      · rcases kind_of_verdict verdict with rfl | rfl <;> simp [Outcome.Terminal]
      · rintro rfl
        exact ⟨candidate, rfl⟩
  | rejected _ _ => exact ⟨rfl, by simp [Outcome.Terminal], by simp⟩

/-- An empty poll has no outcome, whoever may vote. -/
theorem outcome?_empty (round : Round) (electorate : Electorate)
    : (empty round).outcome? electorate = none := by
  refine Option.eq_none_iff_forall_ne_some.mpr fun outcome reached => ?_
  cases outcome?_eq_some_iff.mp reached with
  | decided _ verdict _ | rejected verdict _ =>
      rw [verdict_empty] at verdict
      cases verdict

@[simp] theorem outcome?_freeze (poll : Poll) (outcome : Outcome) (electorate : Electorate)
    : (poll.freeze outcome).outcome? electorate = poll.outcome? electorate := rfl

-----------------------------------------------------------------------------------------
-- The outcome under a single roster
-----------------------------------------------------------------------------------------

theorem round_of_outcome? {poll : Poll} {roster : Roster} {outcome : Outcome}
    (reached : poll.outcome? ⟨roster, none⟩ = some outcome)
    : outcome.round = poll.round :=
  (concludes_of_outcome? reached).round

/-- An outcome decides what the choices of the keys decide. -/
theorem Coherent.decides_of_outcome? {poll : Poll} (coherent : poll.Coherent) {roster : Roster}
    {outcome : Outcome} (reached : poll.outcome? ⟨roster, none⟩ = some outcome)
    : roster.Decides poll.choices poll.round outcome.kind outcome.winner := by
  cases outcome?_eq_some_iff.mp reached with
  | @decided side other kind candidate votes seat verdict _ =>
      obtain rfl := Electorate.eq_of_seat seat
      obtain ⟨carries, accepted⟩ := coherent.carries_of_verdict verdict
      have decides := Roster.Decides.of_carries carries (coherent.round_of_carries carries)
      rw [← accepted] at decides
      exact decides
  | rejected verdict _ => exact .reject (coherent.deadlocked_of_verdict verdict)

/-- A rejection lists all counted votes of peers. -/
theorem Coherent.votes_of_reject {poll : Poll} (coherent : poll.Coherent) {roster : Roster}
    {outcome : Outcome} (reached : poll.outcome? ⟨roster, none⟩ = some outcome)
    (kind : outcome.kind = .reject)
    : outcome.votes.Perm (poll.voters.filter fun vote => decide (roster.Has vote.key)) := by
  cases outcome?_eq_some_iff.mp reached with
  | decided _ verdict _ => rcases kind_of_verdict verdict with rfl | rfl <;> cases kind
  | rejected verdict _ => exact coherent.votes_of_rejected verdict

/-- The votes of a rejection for a candidate are as many as its supporters. -/
theorem Coherent.countP_of_reject {poll : Poll} (coherent : poll.Coherent) {roster : Roster}
    {outcome : Outcome} (reached : poll.outcome? ⟨roster, none⟩ = some outcome)
    (kind : outcome.kind = .reject) (candidate : Candidate)
    : outcome.votes.countP (fun vote => decide (vote.candidate = candidate))
      = (roster.supporters poll.choices candidate).card := by
  rw [(coherent.votes_of_reject reached kind).countP_eq, List.countP_filter,
    coherent.card_supporters]
  simp only [Bool.and_comm]

/-- The peers without a vote in a rejection are the outstanding ones. -/
theorem Coherent.outstanding_of_reject {poll : Poll} (coherent : poll.Coherent) {roster : Roster}
    {outcome : Outcome} (reached : poll.outcome? ⟨roster, none⟩ = some outcome)
    (kind : outcome.kind = .reject)
    : roster.size - outcome.votes.length = roster.outstanding poll.choices := by
  rw [(coherent.votes_of_reject reached kind).length_eq, ← List.countP_eq_length_filter,
    ← coherent.card_participants, Roster.outstanding]

/-- Whatever the choices of the keys decide, there is an outcome. -/
theorem Coherent.exists_outcome? {poll : Poll} (coherent : poll.Coherent) {roster : Roster}
    {kind : OutcomeKind} {winner : Option Candidate}
    (decides : roster.Decides poll.choices poll.round kind winner)
    : ∃ outcome, poll.outcome? ⟨roster, none⟩ = some outcome := by
  have accepts {candidate : Candidate} (carries : roster.Carries poll.choices candidate)
      : ∃ outcome, poll.outcome? ⟨roster, none⟩ = some outcome := by
    obtain ⟨_, _, _, verdict⟩ := coherent.verdict_of_carries carries
    have seat : Electorate.roster? ⟨roster, none⟩ .primary = some roster := rfl
    exact exists_outcome?_of_decided seat verdict
  cases decides with
  | commit _ carries => exact accepts carries
  | nothing carries => exact accepts carries
  | reject deadlock =>
      obtain ⟨_, verdict⟩ := coherent.verdict_of_deadlocked deadlock
      exact ⟨_, outcome?_eq_some_iff.mpr (.rejected verdict nofun)⟩

/-- The outcome decides exactly what the choices of the keys decide; by uniqueness of decisions. -/
theorem Coherent.outcome?_decision_iff {poll : Poll} (coherent : poll.Coherent)
    {roster : Roster} {kind : OutcomeKind} {winner : Option Candidate}
    : (poll.outcome? ⟨roster, none⟩).map Outcome.decision = some (kind, winner)
      ↔ roster.Decides poll.choices poll.round kind winner := by
  constructor
  · intro decided
    obtain ⟨outcome, reached, equal⟩ := Option.map_eq_some_iff.mp decided
    obtain ⟨rfl, rfl⟩ := Prod.mk.inj equal
    exact coherent.decides_of_outcome? reached
  · intro decides
    obtain ⟨outcome, reached⟩ := coherent.exists_outcome? decides
    obtain ⟨rfl, rfl⟩ := (coherent.decides_of_outcome? reached).unique decides
    rw [reached]
    rfl

-----------------------------------------------------------------------------------------
-- All votes at once
-----------------------------------------------------------------------------------------

/-- The poll of a round whose votes are taken in as one batch. -/
def ofVotes (round : Round) (votes : List Vote) : Poll :=
  ((empty round).insert votes).1

theorem insert_ofVotes (round : Round) (first second : List Vote)
    : ((ofVotes round first).insert second).1 = ofVotes round (first ++ second) :=
  (insert_append (empty round) first second).symm

@[simp] theorem round_ofVotes (round : Round) (votes : List Vote)
    : (ofVotes round votes).round = round :=
  round_insert (empty round) votes

@[simp] theorem decision_ofVotes (round : Round) (votes : List Vote)
    : (ofVotes round votes).decision = none :=
  decision_insert (empty round) votes

theorem coherent_ofVotes (round : Round) (votes : List Vote) : (ofVotes round votes).Coherent :=
  (coherent_empty round).insert votes

/-- The poll of a round after some batches of votes, one after the other. -/
def ofBatches (round : Round) (batches : List (List Vote)) : Poll :=
  batches.foldl (fun poll batch => (poll.insert batch).1) (empty round)

/-- How the votes are cut into batches does not matter. -/
theorem ofBatches_eq (round : Round) (batches : List (List Vote))
    : ofBatches round batches = ofVotes round batches.flatten := by
  have general (poll : Poll)
      : batches.foldl (fun poll batch => (poll.insert batch).1) poll
        = (poll.insert batches.flatten).1 := by
    induction batches generalizing poll with
    | nil => rfl
    | cons batch rest ih => rw [List.foldl_cons, ih, List.flatten_cons, insert_append]
  exact general (empty round)

@[simp] theorem round_ofBatches (round : Round) (batches : List (List Vote))
    : (ofBatches round batches).round = round := by
  rw [ofBatches_eq, round_ofVotes]

theorem coherent_ofBatches (round : Round) (batches : List (List Vote))
    : (ofBatches round batches).Coherent := by
  rw [ofBatches_eq]
  exact coherent_ofVotes round _

theorem choices_ofVotes (round : Round) (votes : List Vote) (key : PublicKey)
    : (ofVotes round votes).choices key = firstChoice? round votes key := by
  rw [ofVotes, choices_insert, choices_empty, Option.none_or]
  rfl

/-- The outcome of votes decides exactly what the choices of their keys decide. -/
theorem outcome?_ofVotes_iff {roster : Roster} {round : Round} {votes : List Vote}
    {kind : OutcomeKind} {winner : Option Candidate}
    : ((ofVotes round votes).outcome? ⟨roster, none⟩).map Outcome.decision = some (kind, winner)
      ↔ roster.Decides (ofVotes round votes).choices round kind winner := by
  rw [(coherent_ofVotes round votes).outcome?_decision_iff, round_ofVotes]

theorem decides_of_outcome?_ofVotes {roster : Roster} {round : Round} {votes : List Vote}
    {outcome : Outcome} (reached : (ofVotes round votes).outcome? ⟨roster, none⟩ = some outcome)
    : roster.Decides (ofVotes round votes).choices round outcome.kind outcome.winner :=
  outcome?_ofVotes_iff.mp (by rw [reached]; rfl)

/-- No key of the roster votes for two candidates of the round. -/
def Steady (roster : Roster) (round : Round) (votes : List Vote) : Prop :=
  ∀ vote ∈ votes, ∀ other ∈ votes, vote.round = round → other.round = round →
    roster.Has vote.key → vote.key = other.key → vote.candidate = other.candidate

instance (roster : Roster) (round : Round) (votes : List Vote)
    : Decidable (Steady roster round votes) :=
  inferInstanceAs (Decidable (∀ vote ∈ votes, ∀ other ∈ votes, _ → _ → _ → _ → _))

theorem exists_of_firstChoice? {round : Round} {votes : List Vote} {key : PublicKey}
    {candidate : Candidate} (first : firstChoice? round votes key = some candidate)
    : ∃ vote ∈ votes, vote.round = round ∧ vote.key = key ∧ vote.candidate = candidate := by
  obtain ⟨vote, found, same⟩ := Option.map_eq_some_iff.mp first
  have voted : vote.round = round ∧ vote.key = key := by simpa using List.find?_some found
  exact ⟨vote, List.mem_of_find?_eq_some found, voted.1, voted.2, same⟩

/-- A key that votes for one candidate only is counted for it wherever its votes stand. -/
theorem firstChoice?_eq_some_of_single {round : Round} {votes : List Vote} {key : PublicKey}
    (single
      : ∀ vote ∈ votes, ∀ other ∈ votes, vote.round = round → other.round = round →
          vote.key = key → other.key = key → vote.candidate = other.candidate)
    {candidate : Candidate}
    : firstChoice? round votes key = some candidate
      ↔ ∃ vote ∈ votes, vote.round = round ∧ vote.key = key ∧ vote.candidate = candidate := by
  constructor
  · exact exists_of_firstChoice?
  · rintro ⟨vote, member, own_round, own_key, rfl⟩
    cases found : votes.find? fun vote => decide (vote.round = round ∧ vote.key = key) with
    | none =>
        have absent := List.find?_eq_none.mp found vote member
        exact absurd (decide_eq_true ⟨own_round, own_key⟩) absent
    | some first =>
        have voted : first.round = round ∧ first.key = key := by simpa using List.find?_some found
        have equal := single first (List.mem_of_find?_eq_some found) vote member voted.1 own_round
          voted.2 own_key
        rw [firstChoice?, found, Option.map_some, equal]

theorem Steady.firstChoice?_eq_some {roster : Roster} {round : Round} {votes : List Vote}
    (steady : Steady roster round votes) {key : PublicKey} (has : roster.Has key)
    {candidate : Candidate}
    : firstChoice? round votes key = some candidate
      ↔ ∃ vote ∈ votes, vote.round = round ∧ vote.key = key ∧ vote.candidate = candidate := by
  refine firstChoice?_eq_some_of_single fun vote member other member' voted voted' own own' => ?_
  exact steady vote member other member' voted voted' (own ▸ has) (own.trans own'.symm)

/-- A poll counts one vote of a key, so among the votes it has counted a key has one choice. -/
theorem Coherent.firstChoice?_of_counted {poll : Poll} (coherent : poll.Coherent)
    {votes : List Vote} (counted : ∀ vote ∈ votes, vote ∈ poll.voters) {key : PublicKey}
    {candidate : Candidate}
    : firstChoice? poll.round votes key = some candidate
      ↔ ∃ vote ∈ votes, vote.key = key ∧ vote.candidate = candidate := by
  have single (vote : Vote) (member : vote ∈ votes) (other : Vote) (member' : other ∈ votes)
      (own : vote.key = key) (own' : other.key = key)
      : vote.candidate = other.candidate := by
    rw [List.inj_on_of_nodup_map coherent.distinctKeys (counted vote member)
      (counted other member') (own.trans own'.symm)]
  rw [firstChoice?_eq_some_of_single fun vote member other member' _ _ =>
    single vote member other member']
  constructor
  · rintro ⟨vote, member, -, chosen⟩
    exact ⟨vote, member, chosen⟩
  · rintro ⟨vote, member, chosen⟩
    exact ⟨vote, member, coherent.ofRound vote (counted vote member), chosen⟩

/-- A peer that votes for one candidate only has the same choice in any order of the votes. -/
theorem Steady.choices_perm {roster : Roster} {round : Round} {votes other : List Vote}
    (steady : Steady roster round votes) (same : other.Perm votes) {key : PublicKey}
    (has : roster.Has key)
    : (ofVotes round other).choices key = (ofVotes round votes).choices key := by
  have steady_other : Steady roster round other := fun vote member vote' member' =>
    steady vote (same.mem_iff.mp member) vote' (same.mem_iff.mp member')
  refine Option.ext fun candidate => ?_
  simp only [choices_ofVotes, steady_other.firstChoice?_eq_some has,
    steady.firstChoice?_eq_some has, same.mem_iff]

/-- The order of the votes does not matter where no peer votes for two candidates. -/
theorem Steady.decision_perm {roster : Roster} {round : Round} {votes other : List Vote}
    (steady : Steady roster round votes) (same : other.Perm votes)
    : ((ofVotes round other).outcome? ⟨roster, none⟩).map Outcome.decision
      = ((ofVotes round votes).outcome? ⟨roster, none⟩).map Outcome.decision := by
  have choices (key : PublicKey) (has : roster.Has key) := steady.choices_perm same has
  refine Option.ext fun decided => ?_
  rw [outcome?_ofVotes_iff, outcome?_ofVotes_iff]
  exact ⟨Roster.Decides.congr choices, Roster.Decides.congr fun key has => (choices key has).symm⟩

end Poll

end Quorum
