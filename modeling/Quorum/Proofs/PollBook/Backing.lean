import Quorum.Proofs.Poll.Decision
import Quorum.Proofs.PollBook.Lookup

/-! Polls that count signed votes only, and are decided as these decide. All operations on a poll
book keep them so, and bring forth outcomes that are backed by signed votes.
-/

namespace Quorum

variable {roster : Roster} {signed : PublicKey → Candidate → Prop}

-----------------------------------------------------------------------------------------
-- Backed polls
-----------------------------------------------------------------------------------------

/-- The choices are for candidates of the round, and each key signed its own. -/
structure Choices.Backed (signed : PublicKey → Candidate → Prop) (round : Round)
    (choices : Choices)
    : Prop where
  signed : ∀ key candidate, choices key = some candidate → signed key candidate
  ofRound : ∀ key candidate, choices key = some candidate → candidate.round = round

/-- The outcome is decided by signed votes, or tells of a signed vote in a round ahead. -/
inductive Outcome.Backed (roster : Roster) (signed : PublicKey → Candidate → Prop)
    (outcome : Outcome)
    : Prop
  | decided (choices : Choices) (backed : choices.Backed signed outcome.round)
    (decides : roster.Decides choices outcome.round outcome.kind outcome.winner)
  | future (kind : outcome.kind = .future) (key : PublicKey) (candidate : Candidate)
    (voted : signed key candidate) (ofRound : candidate.round = outcome.round)

namespace Poll

/-- The poll counts signed votes only, and is decided as these decide. -/
structure Backed (roster : Roster) (signed : PublicKey → Candidate → Prop) (poll : Poll)
    : Prop where
  coherent : poll.Coherent
  signed : ∀ vote ∈ poll.voters, signed vote.key vote.candidate
  decided : ∀ outcome, poll.decision = some outcome → poll.outcome? ⟨roster, none⟩ = some outcome

theorem backed_empty (round : Round) : (empty round).Backed roster signed where
  coherent := coherent_empty round
  signed := by simp [empty]
  decided := by simp [empty]

theorem mem_voters_take {poll : Poll} {last vote : Vote} (member : vote ∈ (poll.take last).voters)
    : vote ∈ poll.voters ∨ vote = last := by
  rcases poll.take_cases last with ⟨evidence, taken⟩ | ⟨-, -, taken⟩ <;> rw [taken] at member
  · exact .inl member
  · exact (List.mem_append.mp member).imp_right List.mem_singleton.mp

theorem mem_voters_insert {poll : Poll} {votes : List Vote} {vote : Vote}
    (member : vote ∈ (poll.insert votes).1.voters)
    : vote ∈ poll.voters ∨ vote ∈ votes := by
  rw [insert_fst] at member
  induction votes generalizing poll with
  | nil => exact .inl member
  | cons head rest ih =>
      rcases ih member with taken | later
      · rcases mem_voters_take taken with earlier | rfl
        · exact .inl earlier
        · exact .inr List.mem_cons_self
      · exact .inr (List.mem_cons_of_mem _ later)

/-- Nothing is accepted of a batch without a vote for the round; by induction on the votes, whatever
was accepted before them.
-/
theorem accepted_of_foreign {poll : Poll} {votes : List Vote}
    (foreign : ∀ vote ∈ votes, vote.round ≠ poll.round)
    : (poll.insert votes).2.accepted = 0 := by
  have general (intake : Intake)
      : (votes.foldl (fun state vote => state.1.receive state.2 vote) (poll, intake)).2.accepted
        = intake.accepted := by
    induction votes generalizing intake with
    | nil => rfl
    | cons vote rest ih =>
        obtain ⟨head, tail⟩ := List.forall_mem_cons.mp foreign
        rw [List.foldl_cons, receive, if_pos head]
        exact ih tail _
  exact general .none

/-- A batch of signed votes leaves an undecided poll backed. -/
theorem Backed.insert {poll : Poll} (backed : poll.Backed roster signed)
    (undecided : poll.decision = none) {votes : List Vote}
    (genuine : ∀ vote ∈ votes, signed vote.key vote.candidate)
    : (poll.insert votes).1.Backed roster signed where
  coherent := backed.coherent.insert votes
  signed vote member := (mem_voters_insert member).elim (backed.signed vote) (genuine vote)
  decided outcome decision := by
    rw [decision_insert, undecided] at decision
    cases decision

/-- A poll may be decided as its votes decide. -/
theorem Backed.freeze {poll : Poll} (backed : poll.Backed roster signed)
    (undecided : poll.decision = none) {outcome : Outcome}
    (reached : poll.outcome? ⟨roster, none⟩ = some outcome)
    : (poll.freeze outcome).Backed roster signed where
  coherent := backed.coherent.congr rfl rfl rfl
  signed := backed.signed
  decided known decision := by
    rw [Poll.freeze, undecided] at decision
    exact reached.trans decision

theorem Backed.choices {poll : Poll} (backed : poll.Backed roster signed)
    : poll.choices.Backed signed poll.round := by
  constructor
  · intro key candidate choice
    obtain ⟨vote, member, rfl, rfl⟩ := backed.coherent.choices_eq_some.mp choice
    exact backed.signed vote member
  · intro key candidate choice
    obtain ⟨vote, member, -, rfl⟩ := backed.coherent.choices_eq_some.mp choice
    exact backed.coherent.ofRound vote member

/-- The decision of a backed poll is what its choices decide. -/
theorem Backed.decides {poll : Poll} (backed : poll.Backed roster signed) {outcome : Outcome}
    (decision : poll.decision = some outcome)
    : roster.Decides poll.choices poll.round outcome.kind outcome.winner :=
  backed.coherent.decides_of_outcome? (backed.decided outcome decision)

/-- An outcome that the votes of a backed poll imply is backed by them. -/
theorem Backed.outcome {poll : Poll} (backed : poll.Backed roster signed) {outcome : Outcome}
    (reached : poll.outcome? ⟨roster, none⟩ = some outcome)
    : outcome.Backed roster signed := by
  have decides := backed.coherent.decides_of_outcome? reached
  have round : outcome.round = poll.round := round_of_outcome? reached
  exact .decided poll.choices (round ▸ backed.choices) (round ▸ decides)

end Poll

-----------------------------------------------------------------------------------------
-- Backed books
-----------------------------------------------------------------------------------------

namespace PollBook

/-- All polls of the book are backed. -/
def Backed (roster : Roster) (signed : PublicKey → Candidate → Prop) (book : PollBook) : Prop :=
  ∀ poll ∈ book.polls, poll.Backed roster signed

theorem backed_new (window : UInt64) : (empty window).Backed roster signed := by
  simp [Backed, empty]

theorem Backed.poll {book : PollBook} (backed : book.Backed roster signed) (round : Round)
    : (book.poll round).Backed roster signed :=
  poll_of_forall_mem backed (Poll.backed_empty round)

theorem Backed.put {book : PollBook} (backed : book.Backed roster signed) {poll : Poll}
    (also : poll.Backed roster signed)
    : (book.put poll).Backed roster signed :=
  forall_mem_put backed also

theorem Backed.advance {book : PollBook} (backed : book.Backed roster signed) (round : Round)
    : (book.advance round).Backed roster signed :=
  fun poll member => backed poll (mem_polls_advance member)

/-- Signed votes keep a book backed, and so is the outcome that they cause. -/
theorem Backed.insert {book : PollBook} (backed : book.Backed roster signed) (round : Round)
    {votes : List Vote} (genuine : ∀ vote ∈ votes, signed vote.key vote.candidate)
    : (book.insert round votes (some ⟨roster, none⟩)).1.Backed roster signed
      ∧ ∀ outcome ∈ (book.insert round votes (some ⟨roster, none⟩)).2.outcome,
          outcome.Backed roster signed := by
  generalize result : book.insert round votes (some ⟨roster, none⟩) = receipt
  have ends := result ▸ book.insertion round votes (some ⟨roster, none⟩)
  have after {poll : Poll} {intake : Intake} (active : (book.poll round).decision = none)
      (taken : (book.poll round).insert votes = (poll, intake))
      : poll.Backed roster signed := by
    have grown := (backed.poll round).insert active genuine
    rwa [taken] at grown
  cases ends with
  | refused _ => exact ⟨backed, by simp⟩
  | @announced poll intake _ active taken _ accepted _ =>
      have grown := after active taken
      refine ⟨backed.put ⟨grown.coherent.congr rfl rfl rfl, grown.signed, grown.decided⟩, ?_⟩
      rintro _ ⟨⟩
      obtain ⟨vote, member, own⟩ : ∃ vote ∈ votes, vote.round = (book.poll round).round := by
        by_contra foreign
        push Not at foreign
        have nothing := Poll.accepted_of_foreign foreign
        rw [taken] at nothing
        exact absurd nothing (Nat.ne_of_gt accepted)
      exact .future rfl vote.key vote.candidate (genuine vote member)
        (own.trans (round_poll book round))
  | retained _ active taken _ _ => exact ⟨backed.put (after active taken), by simp⟩
  | undecided _ active taken _ _ => exact ⟨backed.put (after active taken), by simp⟩
  | @decided poll intake outcome _ active taken _ decides =>
      have grown := after active taken
      have undecided := (decision_of_taken taken).trans active
      refine ⟨backed.put (grown.freeze undecided decides), ?_⟩
      rintro _ ⟨⟩
      exact grown.outcome decides

/-- An evaluation keeps a book backed, and so is its ruling. -/
theorem Backed.evaluate {book : PollBook} (backed : book.Backed roster signed) (round : Round)
    : (book.evaluate round ⟨roster, none⟩).1.Backed roster signed
      ∧ ∀ ruling ∈ (book.evaluate round ⟨roster, none⟩).2, ruling.outcome.Backed roster signed := by
  generalize result : book.evaluate round ⟨roster, none⟩ = ruling
  have ends := result ▸ book.evaluation round ⟨roster, none⟩
  have held := backed.poll round
  cases ends with
  | untracked _ => exact ⟨backed, by simp⟩
  | undecided _ _ => exact ⟨backed, by simp⟩
  | stored known =>
      refine ⟨backed, ?_⟩
      rintro _ ⟨⟩
      exact held.outcome (held.decided _ known)
  | decided active decides =>
      refine ⟨backed.put (held.freeze active decides), ?_⟩
      rintro _ ⟨⟩
      exact held.outcome decides

theorem Backed.round_of_decision {book : PollBook} (backed : book.Backed roster signed)
    {round : Round} {outcome : Outcome} (decision : book.decision round = some outcome)
    : outcome.round = round := by
  have reached := (backed.poll round).decided outcome decision
  exact (Poll.round_of_outcome? reached).trans (round_poll book round)

/-- A stored decision of a backed book is what signed choices for its round decide. -/
theorem Backed.decides {book : PollBook} (backed : book.Backed roster signed) {round : Round}
    {outcome : Outcome} (decision : book.decision round = some outcome)
    : (book.poll round).choices.Backed signed round
      ∧ roster.Decides (book.poll round).choices round outcome.kind outcome.winner := by
  have held := backed.poll round
  have choices := held.choices
  have decides := held.decides decision
  rw [round_poll] at choices decides
  exact ⟨choices, decides⟩

end PollBook

end Quorum
