import Quorum.Proofs.Poll.Finality

/-! Votes of strangers, who belong to no roster of the electorate. They may come into a poll, since it
does not know who will decide its round, and they make piles of their own. Still the outcome is what it
is without them, but for the order of its votes.
-/

namespace Quorum

-----------------------------------------------------------------------------------------
-- Verdicts and outcomes up to order
-----------------------------------------------------------------------------------------

/-- The verdicts are the same, but for the order of the votes of a rejection. -/
inductive Verdict.Matches : Verdict → Verdict → Prop
  | decided (kind : OutcomeKind) (candidate : Candidate) (votes : List Vote)
    : Matches (.decided kind candidate votes) (.decided kind candidate votes)
  | rejected {votes other : List Vote} (same : votes.Perm other)
    : Matches (.rejected votes) (.rejected other)
  | undecided : Matches .undecided .undecided

namespace Verdict.Matches

theorem symm {verdict other : Verdict} (same : verdict.Matches other) : other.Matches verdict := by
  cases same with
  | decided kind candidate votes => exact .decided kind candidate votes
  | rejected same => exact .rejected same.symm
  | undecided => exact .undecided

theorem eq_of_decided {verdict : Verdict} {kind : OutcomeKind} {candidate : Candidate}
    {votes : List Vote} (same : (Verdict.decided kind candidate votes).Matches verdict)
    : verdict = .decided kind candidate votes := by
  cases same
  rfl

theorem exists_of_rejected {verdict : Verdict} {votes : List Vote}
    (same : (Verdict.rejected votes).Matches verdict)
    : ∃ other, verdict = .rejected other ∧ votes.Perm other := by
  cases same with
  | rejected same => exact ⟨_, rfl, same⟩

end Verdict.Matches

/-- The outcomes are the same, but for the order of their votes. -/
structure Outcome.Matches (outcome other : Outcome) : Prop where
  kind : outcome.kind = other.kind
  round : outcome.round = other.round
  winner : outcome.winner = other.winner
  side : outcome.side = other.side
  votes : outcome.votes.Perm other.votes

section

variable {poll other : Poll} {electorate : Electorate}

/-- What one poll implies, another with the same verdicts implies as well. -/
theorem Poll.Implies.transfer {outcome : Outcome} (implied : poll.Implies electorate outcome)
    (same_round : poll.round = other.round)
    (verdicts
      : ∀ roster, electorate.Includes roster →
          (poll.verdict roster).Matches (other.verdict roster))
    : ∃ result, other.Implies electorate result ∧ outcome.Matches result := by
  have primary := verdicts electorate.primary (.inl rfl)
  cases implied with
  | @decided side roster kind candidate votes seat verdict first =>
      have included : electorate.Includes roster := Electorate.includes_iff.mpr ⟨side, seat⟩
      have verdict' := (verdict ▸ verdicts roster included).eq_of_decided
      refine ⟨_, .decided seat verdict' ?_, rfl, same_round, rfl, rfl, .refl votes⟩
      intro alternative kind' candidate' votes' decided
      exact first alternative _ _ _ (decided ▸ primary).symm.eq_of_decided
  | @rejected votes verdict others =>
      obtain ⟨votes', verdict', same⟩ := (verdict ▸ primary).exists_of_rejected
      refine ⟨_, .rejected verdict' fun roster known => ?_, rfl, same_round, rfl, rfl, same⟩
      obtain ⟨listed, rejected⟩ := others roster known
      obtain ⟨listed', rejected', -⟩ := (rejected ▸ verdicts roster (.inr known)).exists_of_rejected
      exact ⟨listed', rejected'⟩

/-- Outcomes match where the verdicts under all rosters do. -/
theorem Poll.outcome?_matches (same_round : poll.round = other.round)
    (verdicts
      : ∀ roster, electorate.Includes roster →
          (poll.verdict roster).Matches (other.verdict roster))
    : Option.Rel Outcome.Matches (poll.outcome? electorate) (other.outcome? electorate) := by
  cases reached : poll.outcome? electorate with
  | some outcome =>
      have implied := outcome?_eq_some_iff.mp reached
      obtain ⟨result, implied', same⟩ := implied.transfer same_round verdicts
      rw [outcome?_eq_some_iff.mpr implied']
      exact .some same
  | none =>
      cases reached' : other.outcome? electorate with
      | none => exact .none
      | some result =>
          have implied := outcome?_eq_some_iff.mp reached'
          obtain ⟨outcome, implied', -⟩ := implied.transfer same_round.symm fun roster included =>
            (verdicts roster included).symm
          cases reached.symm.trans (outcome?_eq_some_iff.mpr implied')

end

namespace Poll

-----------------------------------------------------------------------------------------
-- The votes of peers alone
-----------------------------------------------------------------------------------------

/-- The other poll has counted what the first one has counted of peers, and nothing else. -/
structure Thins (electorate : Electorate) (poll other : Poll) : Prop where
  round : poll.round = other.round
  voters : other.voters = poll.voters.filter fun vote => decide (electorate.Has vote.key)

/-- The votes by peers of the electorate. -/
def byPeers (electorate : Electorate) (votes : List Vote) : List Vote :=
  votes.filter fun vote => decide (electorate.Has vote.key)

section

variable {electorate : Electorate} {poll other : Poll}

theorem Thins.firstVote?_eq (thins : Thins electorate poll other) {key : PublicKey}
    (has : electorate.Has key)
    : other.firstVote? key = poll.firstVote? key := by
  rw [firstVote?, firstVote?, thins.voters, List.find?_filter]
  congr 1
  funext vote
  by_cases own : vote.key = key
  · simp [own, has]
  · simp [own]

theorem Thins.choices_eq (thins : Thins electorate poll other) {key : PublicKey}
    (has : electorate.Has key)
    : poll.choices key = other.choices key := by
  rw [choices, choices, thins.firstVote?_eq has]

/-- A vote of a peer may come into both polls. -/
theorem Thins.take (thins : Thins electorate poll other) {vote : Vote}
    (has : electorate.Has vote.key)
    : Thins electorate (poll.take vote) (other.take vote) := by
  refine ⟨by simp only [round_take, thins.round], ?_⟩
  by_cases same : vote.round = poll.round
  · have same' : vote.round = other.round := same.trans thins.round
    have known := thins.firstVote?_eq has
    cases first : poll.firstVote? vote.key with
    | none =>
        rw [take_of_first same first, take_of_first same' (known.trans first)]
        simp [thins.voters, List.filter_append, has]
    | some counted =>
        obtain ⟨evidence, further⟩ := take_of_further first
        obtain ⟨evidence', further'⟩ := take_of_further (known.trans first)
        rw [further, further']
        exact thins.voters
  · have foreign : vote.round ≠ other.round := fun equal => same (equal.trans thins.round.symm)
    rw [take_of_foreign same, take_of_foreign foreign]
    exact thins.voters

/-- A vote of a stranger may come into the first poll alone. -/
theorem Thins.take_stranger (thins : Thins electorate poll other) {vote : Vote}
    (stranger : ¬ electorate.Has vote.key)
    : Thins electorate (poll.take vote) other := by
  refine ⟨by simp only [round_take, thins.round], ?_⟩
  rcases poll.take_cases vote with ⟨evidence, taken⟩ | ⟨-, -, taken⟩ <;> rw [taken]
  · exact thins.voters
  · simp [thins.voters, List.filter_append, stranger]

/-- By induction on the votes, of which only those by peers come into both polls. -/
theorem Thins.insert (thins : Thins electorate poll other) (votes : List Vote)
    : Thins electorate (poll.insert votes).1 (other.insert (byPeers electorate votes)).1 := by
  rw [insert_fst, insert_fst]
  induction votes generalizing poll other with
  | nil => exact thins
  | cons vote rest ih =>
      by_cases has : electorate.Has vote.key
      · have kept : byPeers electorate (vote :: rest) = vote :: byPeers electorate rest := by
          simp [byPeers, has]
        rw [kept]
        exact ih (thins.take has)
      · have dropped : byPeers electorate (vote :: rest) = byPeers electorate rest := by
          simp [byPeers, has]
        rw [dropped]
        exact ih (thins.take_stranger has)

theorem thins_ofBatches (electorate : Electorate) (round : Round) (batches : List (List Vote))
    : Thins electorate (ofBatches round batches)
        (ofBatches round (batches.map (byPeers electorate))) := by
  have empty : Thins electorate (.empty round) (.empty round) := ⟨rfl, rfl⟩
  have gathered : (batches.map (byPeers electorate)).flatten = byPeers electorate batches.flatten :=
    List.filter_flatten.symm
  rw [ofBatches_eq, ofBatches_eq, gathered]
  exact empty.insert batches.flatten

-----------------------------------------------------------------------------------------
-- What is decided without strangers
-----------------------------------------------------------------------------------------

/-- Both polls hold the same votes of a roster's peers, in the same order. -/
theorem Thins.filter_voters (thins : Thins electorate poll other) {roster : Roster}
    (included : electorate.Includes roster) (property : Vote → Bool)
    : other.voters.filter (fun vote => decide (roster.Has vote.key) && property vote)
      = poll.voters.filter fun vote => decide (roster.Has vote.key) && property vote := by
  rw [thins.voters, List.filter_filter]
  refine List.filter_congr fun vote _ => ?_
  by_cases has : roster.Has vote.key
  · simp [has, Electorate.has_of_includes included has]
  · simp [has]

/-- The peers have chosen alike in both polls, and an accepted candidate rests on the same votes. -/
theorem Thins.verdict_matches (thins : Thins electorate poll other) (coherent : poll.Coherent)
    (coherent' : other.Coherent) {roster : Roster} (included : electorate.Includes roster)
    : (poll.verdict roster).Matches (other.verdict roster) := by
  have same (key : PublicKey) (has : roster.Has key) : poll.choices key = other.choices key :=
    thins.choices_eq (Electorate.has_of_includes included has)
  have same' (key : PublicKey) (has : roster.Has key) : other.choices key = poll.choices key :=
    (same key has).symm
  cases verdict : poll.verdict roster with
  | decided kind candidate votes =>
      obtain ⟨carries, accepted⟩ := coherent.carries_of_verdict verdict
      obtain ⟨kind', winner, votes', verdict'⟩ :=
        coherent'.verdict_of_carries (carries.congr same)
      obtain ⟨wins, accepted'⟩ := coherent'.carries_of_verdict verdict'
      obtain rfl : winner = candidate := wins.unique (carries.congr same)
      obtain rfl : kind' = kind := congrArg Prod.fst (accepted'.trans accepted.symm)
      have listed : votes' = votes := by
        rw [coherent'.votes_of_decided verdict', coherent.votes_of_decided verdict]
        exact thins.filter_voters included _
      rw [verdict', listed]
      exact .decided kind' winner votes
  | rejected votes =>
      have deadlock := (coherent.deadlocked_of_verdict verdict).congr same
      obtain ⟨votes', verdict'⟩ := coherent'.verdict_of_deadlocked deadlock
      have listed := thins.filter_voters included fun _ => true
      simp only [Bool.and_true] at listed
      rw [verdict']
      refine .rejected ((coherent.votes_of_rejected verdict).trans ?_)
      rw [← listed]
      exact (coherent'.votes_of_rejected verdict').symm
  | undecided =>
      cases verdict' : other.verdict roster with
      | decided _ _ _ =>
          have carries := (coherent'.carries_of_verdict verdict').1.congr same'
          obtain ⟨_, _, _, decided⟩ := coherent.verdict_of_carries carries
          cases verdict.symm.trans decided
      | rejected _ =>
          have deadlock := (coherent'.deadlocked_of_verdict verdict').congr same'
          obtain ⟨_, rejected⟩ := coherent.verdict_of_deadlocked deadlock
          cases verdict.symm.trans rejected
      | undecided => exact .undecided

end

/-- Whoever may decide a round, and whatever votes came in: without the votes of strangers there is an
outcome exactly if there is one with them, and it is the same one but for the order of its votes.
-/
theorem outcome?_without_strangers (electorate : Electorate) (round : Round)
    (batches : List (List Vote))
    : Option.Rel Outcome.Matches ((ofBatches round batches).outcome? electorate)
        ((ofBatches round (batches.map (byPeers electorate))).outcome? electorate) := by
  have thins := thins_ofBatches electorate round batches
  refine outcome?_matches thins.round fun roster included => ?_
  exact thins.verdict_matches (coherent_ofBatches _ _) (coherent_ofBatches _ _) included

/-- A stranger who votes first decides which votes of a rejection are listed first. -/
example
    : let heard : List (List Vote) :=
        [[.numbered 9 (.numbered 2)], [.numbered 1 (.numbered 1), .numbered 2 (.numbered 2)],
          [.numbered 3 (.numbered 1), .numbered 4 (.numbered 2)]]
      let electorate : Electorate := ⟨.four, none⟩
      ((ofBatches ⟨5, 0⟩ heard).outcome? electorate).map (·.votes.map Vote.key)
        = some [.numbered 2, .numbered 4, .numbered 1, .numbered 3]
      ∧ ((ofBatches ⟨5, 0⟩ (heard.map (byPeers electorate))).outcome? electorate).map
            (·.votes.map Vote.key)
          = some [.numbered 1, .numbered 3, .numbered 2, .numbered 4] := by
  decide

end Poll

end Quorum
