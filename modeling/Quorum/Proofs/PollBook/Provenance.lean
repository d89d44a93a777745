import Quorum.Proofs.PollBook.Backing

/-! Where the votes of a poll book come from. A poll holds no vote that was not put into it for its
round, and its evidence convicts: it shows two votes of one key for different candidates of the round.
-/

namespace Quorum

/-- The two votes are of one key, for different candidates of the round. -/
structure Equivocation.Convicts (known : Equivocation) (round : Round) : Prop where
  first : known.first.round = round
  second : known.second.round = round
  same_key : known.first.key = known.second.key
  differ : known.first.candidate ≠ known.second.candidate

-----------------------------------------------------------------------------------------
-- Polls
-----------------------------------------------------------------------------------------

namespace Poll

/-- The vote is counted, or one of the two of a piece of evidence. -/
inductive Holds (poll : Poll) (vote : Vote) : Prop
  | counted (member : vote ∈ poll.votes)
  | first {known : Equivocation} (member : known ∈ poll.evidence) (same : known.first = vote)
  | second {known : Equivocation} (member : known ∈ poll.evidence) (same : known.second = vote)

/-- All votes that come into the poll are vouched for, and its evidence convicts. -/
structure Vouched (vouched : Vote → Prop) (poll : Poll) : Prop where
  coherent : poll.Coherent
  voters : ∀ vote ∈ poll.voters, vouched vote
  first : ∀ known ∈ poll.evidence, known.first ∈ poll.voters
  second : ∀ known ∈ poll.evidence, vouched known.second
  convicts : ∀ known ∈ poll.evidence, known.Convicts poll.round

section

variable {vouched : Vote → Prop} {poll : Poll}

theorem vouched_empty (round : Round) : (empty round).Vouched vouched where
  coherent := coherent_empty round
  voters := by simp [empty]
  first := by simp [empty]
  second := by simp [empty]
  convicts := by simp [empty]

/-- New evidence shows a vote that is counted, and the last one that came in. -/
theorem mem_evidence_take {last : Vote} {known : Equivocation}
    (member : known ∈ (poll.take last).evidence)
    : known ∈ poll.evidence
      ∨ last.round = poll.round ∧ poll.firstVote? last.key = some known.first
        ∧ known.second = last ∧ known.first.candidate ≠ last.candidate := by
  have taken := poll.taking .none last
  rw [take] at member
  generalize poll.receive .none last = result at taken member
  cases taken with
  | foreign _ | counted _ _ | repeated _ _ _ => exact .inl member
  | convicting same voted differ _ =>
      rcases List.mem_append.mp member with earlier | added
      · exact .inl earlier
      · obtain rfl := List.mem_singleton.mp added
        exact .inr ⟨same, voted, rfl, differ⟩

theorem voters_subset_take (vote : Vote) : poll.voters ⊆ (poll.take vote).voters := by
  intro known member
  rcases poll.take_cases vote with ⟨evidence, taken⟩ | ⟨-, -, taken⟩ <;> rw [taken]
  · exact member
  · exact List.mem_append_left _ member

theorem Vouched.take (held : poll.Vouched vouched) {vote : Vote} (genuine : vouched vote)
    : (poll.take vote).Vouched vouched where
  coherent := held.coherent.take vote
  voters known member := by
    rcases mem_voters_take member with earlier | rfl
    · exact held.voters known earlier
    · exact genuine
  first known member := by
    refine voters_subset_take vote ?_
    rcases mem_evidence_take member with earlier | ⟨-, counted, -, -⟩
    · exact held.first known earlier
    · exact List.mem_of_find?_eq_some counted
  second known member := by
    rcases mem_evidence_take member with earlier | ⟨-, -, rfl, -⟩
    · exact held.second known earlier
    · exact genuine
  convicts known member := by
    rw [round_take]
    rcases mem_evidence_take member with earlier | ⟨own, counted, rfl, differ⟩
    · exact held.convicts known earlier
    · have first := held.coherent.ofRound _ (List.mem_of_find?_eq_some counted)
      have same_key : known.first.key = known.second.key := by simpa using List.find?_some counted
      exact ⟨first, own, same_key, differ⟩

/-- A batch of votes that are vouched for may come in, vote by vote. -/
theorem Vouched.insert (held : poll.Vouched vouched) {votes : List Vote}
    (genuine : ∀ vote ∈ votes, vouched vote)
    : (poll.insert votes).1.Vouched vouched := by
  rw [insert_fst]
  induction votes generalizing poll with
  | nil => exact held
  | cons vote rest ih =>
      obtain ⟨first, others⟩ := List.forall_mem_cons.mp genuine
      exact ih (held.take first) others

/-- Decisions, and reports of votes ahead, do not matter. -/
theorem Vouched.congr {other : Poll} (held : poll.Vouched vouched) (alike : poll.Alike other)
    : other.Vouched vouched where
  coherent := held.coherent.congr alike.round alike.voters alike.piles
  voters := alike.voters ▸ held.voters
  first := by
    rw [alike.evidence, alike.voters]
    exact held.first
  second := alike.evidence ▸ held.second
  convicts := by
    rw [alike.evidence, alike.round]
    exact held.convicts

theorem Vouched.mono {known : Vote → Prop} (held : poll.Vouched vouched)
    (also : ∀ vote, vouched vote → known vote)
    : poll.Vouched known where
  coherent := held.coherent
  voters vote member := also vote (held.voters vote member)
  first := held.first
  second entry member := also entry.second (held.second entry member)
  convicts := held.convicts

/-- Every vote that is held is one of the round that is vouched for. -/
theorem Vouched.of_holds (held : poll.Vouched vouched) {vote : Vote} (holds : poll.Holds vote)
    : vote.round = poll.round ∧ vouched vote := by
  have counted {vote : Vote} (member : vote ∈ poll.voters) : vote.round = poll.round ∧ vouched vote :=
    ⟨held.coherent.ofRound vote member, held.voters vote member⟩
  cases holds with
  | counted member => exact counted (held.coherent.votes_perm.mem_iff.mp member)
  | first member same =>
      subst same
      exact counted (held.first _ member)
  | second member same =>
      subst same
      exact ⟨(held.convicts _ member).second, held.second _ member⟩

end

end Poll

-----------------------------------------------------------------------------------------
-- Books
-----------------------------------------------------------------------------------------

namespace PollBook

/-- All votes that come into the book are vouched for in their round. -/
def Vouched (vouched : Round → Vote → Prop) (book : PollBook) : Prop :=
  ∀ poll ∈ book.polls, poll.Vouched (vouched poll.round)

namespace Vouched

variable {vouched : Round → Vote → Prop} {book : PollBook}

theorem empty (window : UInt64) : (PollBook.empty window).Vouched vouched := by
  simp [Vouched, PollBook.empty]

theorem poll_own (held : book.Vouched vouched) (round : Round)
    : (book.poll round).Vouched (vouched (book.poll round).round) :=
  @poll_of_forall_mem book (fun poll => poll.Vouched (vouched poll.round)) held round
    (Poll.vouched_empty round)

theorem poll (held : book.Vouched vouched) (round : Round)
    : (book.poll round).Vouched (vouched round) := by
  have own := held.poll_own round
  rwa [round_poll] at own

theorem put (held : book.Vouched vouched) {poll : Poll} (also : poll.Vouched (vouched poll.round))
    : (book.put poll).Vouched vouched :=
  forall_mem_put held also

theorem advance (held : book.Vouched vouched) (round : Round)
    : (book.advance round).Vouched vouched :=
  fun poll member => held poll (mem_polls_advance member)

theorem insert (held : book.Vouched vouched) {round : Round} {votes : List Vote}
    (genuine : ∀ vote ∈ votes, vouched round vote) (electorate : Option Electorate)
    : (book.insert round votes electorate).1.Vouched vouched := by
  rcases book.insert_cases round votes electorate with same | ⟨poll, -, -, alike, own, same⟩
  · rw [same]
    exact held
  · have grown := ((held.poll round).insert genuine).congr alike
    rw [same]
    exact held.put (own ▸ grown)

theorem evaluate (held : book.Vouched vouched) (round : Round) (electorate : Electorate)
    : (book.evaluate round electorate).1.Vouched vouched := by
  rcases book.evaluate_cases round electorate with same | ⟨outcome, -, -, same⟩
  · rw [same]
    exact held
  · rw [same]
    exact held.put ((held.poll_own round).congr (Poll.alike_freeze _ outcome))

theorem mono {known : Round → Vote → Prop} (held : book.Vouched vouched)
    (also : ∀ round vote, vouched round vote → known round vote)
    : book.Vouched known :=
  fun poll member => (held poll member).mono (also poll.round)

end Vouched

end PollBook

end Quorum
