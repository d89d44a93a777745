import Quorum.Proofs.Poll.Bookkeeping

/-! Votes that come in again. However a vote was handled when it first came in, the poll then knows it,
and goes on knowing it. Votes that a poll knows change nothing, in whatever order and however often.
-/

namespace Quorum.Poll

-----------------------------------------------------------------------------------------
-- Votes that a poll knows
-----------------------------------------------------------------------------------------

/-- The vote says nothing new. -/
inductive Knows (poll : Poll) (vote : Vote) : Prop
  /-- The poll has no use for it. -/
  | foreign (other : vote.round ≠ poll.round)
  /-- Its key has a counted vote for the candidate, perhaps with another signature. -/
  | counted {first : Vote} (voted : poll.firstVote? vote.key = some first)
    (same : first.candidate = vote.candidate)
  | evidence {first : Vote} (voted : poll.firstVote? vote.key = some first)
    (known : ∃ known ∈ poll.evidence, known.second = vote)

/-- A vote is known once it was taken in, in each of the four ways. -/
theorem Taking.knows {poll next : Poll} {intake account : Intake} {vote : Vote}
    (taking : poll.Taking intake vote (next, account))
    : next.Knows vote := by
  cases taking with
  | foreign other => exact .foreign other
  | counted same first =>
      have unseen : poll.voters.find? (·.key = vote.key) = none := first
      have voted : (poll.voters ++ [vote]).find? (·.key = vote.key) = some vote := by
        simp [List.find?_append, unseen]
      exact .counted voted rfl
  | repeated same voted known =>
      rcases known with for_same | shown
      · exact .counted voted for_same
      · exact .evidence voted shown
  | convicting same voted differ new =>
      exact .evidence voted ⟨_, List.mem_append_right _ (List.mem_singleton_self _), rfl⟩

/-- What a poll knows it does not forget, since the record and the evidence only grow. -/
theorem Knows.insert {poll : Poll} {vote : Vote} (knows : poll.Knows vote) (votes : List Vote)
    : (poll.insert votes).1.Knows vote := by
  cases knows with
  | foreign other =>
      refine .foreign ?_
      rw [round_insert]
      exact other
  | counted voted same => exact .counted (firstVote?_insert voted votes) same
  | evidence voted known =>
      obtain ⟨added, shown, -⟩ := (accounts_insert poll votes).evidence
      obtain ⟨known, member, second⟩ := known
      refine .evidence (firstVote?_insert voted votes) ⟨known, ?_, second⟩
      rw [shown]
      exact List.mem_append_left _ member

/-- A poll knows all votes of a batch that it was given. -/
theorem knows_of_mem {votes : List Vote} {vote : Vote} (member : vote ∈ votes) (poll : Poll)
    : (poll.insert votes).1.Knows vote := by
  obtain ⟨before, after, rfl⟩ := List.append_of_mem member
  have taken : (poll.insert (before ++ [vote])).1.Knows vote := by
    rw [insert_concat]
    exact (taking _ _ vote).knows
  rw [List.append_cons, insert_append]
  exact taken.insert after

-----------------------------------------------------------------------------------------
-- Taking them in again
-----------------------------------------------------------------------------------------

/-- A known vote leaves the poll as it is, and is told to be foreign or a duplicate. -/
theorem Knows.receive {poll : Poll} {vote : Vote} (knows : poll.Knows vote) (intake : Intake)
    : poll.receive intake vote
      = (poll, if vote.round = poll.round then intake.duplicate else intake.misplace) := by
  have taken := poll.taking intake vote
  generalize result : poll.receive intake vote = ending at taken
  cases taken with
  | foreign other => rw [if_neg other]
  | repeated same _ _ => rw [if_pos same]
  | counted same unseen =>
      cases knows with
      | foreign other => exact absurd same other
      | counted voted _ | evidence voted _ => cases unseen.symm.trans voted
  | convicting same voted differ new =>
      cases knows with
      | foreign other => exact absurd same other
      | counted voted' for_same =>
          obtain rfl := Option.some.inj (voted.symm.trans voted')
          exact absurd for_same differ
      | evidence _ known =>
          obtain ⟨known, member, second⟩ := known
          exact absurd second (new known member)

/-- By induction on the batch, from its end. -/
theorem insert_of_known {poll : Poll} {votes : List Vote}
    (known : ∀ vote ∈ votes, poll.Knows vote)
    : poll.insert votes
      = (poll,
          { accepted := 0
            duplicates := votes.countP fun vote => decide (vote.round = poll.round)
            equivocations := 0
            foreign := votes.countP fun vote => decide (vote.round ≠ poll.round) }) := by
  induction votes using List.reverseRecOn with
  | nil => rfl
  | append_singleton rest vote ih =>
      have earlier := ih fun other member => known other (List.mem_append_left _ member)
      have last := known vote (List.mem_append_right _ (List.mem_singleton_self vote))
      rw [insert_concat, earlier, last.receive]
      by_cases same : vote.round = poll.round <;>
        simp [same, Intake.duplicate, Intake.misplace, List.countP_append]

/-- Votes that were delivered before change nothing, however they were handled then, and whatever
their order and number now. Those of the round are duplicates, and the others are foreign.
-/
theorem insert_of_delivered (round : Round) {batches : List (List Vote)} {votes : List Vote}
    (delivered : ∀ vote ∈ votes, ∃ batch ∈ batches, vote ∈ batch)
    : let poll := ofBatches round batches
      poll.insert votes
        = (poll,
            { accepted := 0
              duplicates := votes.countP fun vote => decide (vote.round = round)
              equivocations := 0
              foreign := votes.countP fun vote => decide (vote.round ≠ round) }) := by
  intro poll
  have own : poll.round = round := round_ofBatches round batches
  have known (vote : Vote) (member : vote ∈ votes) : poll.Knows vote := by
    simp only [poll, ofBatches_eq]
    exact knows_of_mem (List.mem_flatten.mpr (delivered vote member)) (empty round)
  have result := insert_of_known known
  rwa [own] at result

/-- A vote, the same with another signature, two votes of its key for other candidates, and one of
another round.
-/
def mixedVotes : List Vote :=
  [.numbered 1 (.numbered 1), ⟨.numbered 1, ⟨[1]⟩, .numbered 1⟩, .numbered 1 (.numbered 2),
    .numbered 1 (.numbered 3), .numbered 2 (.empty ⟨6, 0⟩)]

theorem insert_of_delivered_backwards
    : let poll := ofBatches ⟨5, 0⟩ [mixedVotes.take 3, mixedVotes.drop 3]
      poll.voters = [.numbered 1 (.numbered 1)] ∧ poll.evidence.length = 2
      ∧ poll.insert (mixedVotes.reverse ++ mixedVotes) = (poll, ⟨0, 8, 0, 2⟩) := by
  intro poll
  have delivered
      : ∀ vote ∈ mixedVotes.reverse ++ mixedVotes,
          ∃ batch ∈ [mixedVotes.take 3, mixedVotes.drop 3], vote ∈ batch := by
    decide
  exact ⟨by decide, by decide, insert_of_delivered ⟨5, 0⟩ delivered⟩

end Quorum.Poll
