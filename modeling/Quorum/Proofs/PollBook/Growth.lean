import Quorum.Proofs.Poll.Decision
import Quorum.Proofs.PollBook.Lookup

/-! Poll books only grow. The current round never goes back; a stored decision, and the mark of a
round reported ahead, stay until the round falls out of the window, and such a round never comes
back.
-/

namespace Quorum

namespace Round

theorem le_refl (round : Round) : round ≤ round :=
  .inr rfl

theorem le_trans {first second third : Round} (before : first ≤ second) (after : second ≤ third)
    : first ≤ third := by
  rw [← rank_le_rank] at before after ⊢
  omega

theorem le_antisymm {left right : Round} (le : left ≤ right) (ge : right ≤ left)
    : left = right := by
  rw [← rank_le_rank] at le ge
  exact rank_inj.mp (Nat.le_antisymm le ge)

theorem le_of_not_le {left right : Round} (not_le : ¬ left ≤ right) : right ≤ left := by
  rw [← rank_le_rank] at not_le ⊢
  omega

theorem lt_irrefl (round : Round) : ¬ round < round := by
  rw [← rank_lt_rank]
  omega

theorem lt_of_le_of_ne {left right : Round} (le : left ≤ right) (differ : left ≠ right)
    : left < right :=
  le.resolve_right differ

theorem lt_of_le_of_lt {first second third : Round} (before : first ≤ second)
    (after : second < third)
    : first < third := by
  rw [← rank_le_rank] at before
  rw [← rank_lt_rank] at after ⊢
  omega

theorem height_le {left right : Round} (le : left ≤ right)
    : left.height.toNat ≤ right.height.toNat := by
  rcases le with (higher | ⟨same, -⟩) | same
  · exact Nat.le_of_lt (UInt64.lt_iff_toNat_lt.mp higher)
  · rw [same]
  · rw [same]

end Round

namespace PollBook

-----------------------------------------------------------------------------------------
-- The window of a later book
-----------------------------------------------------------------------------------------

theorem not_expired_of_le {book : PollBook} {round : Round} (reached : book.current ≤ round)
    : ¬ book.Expired round := by
  have height := Round.height_le reached
  have small := round.height.toNat_lt
  unfold Expired
  rw [UInt64.lt_iff_toNat_lt, Word.toNat_saturatingAdd]
  simp only [UInt64.size]
  omega

/-- The current round lies in the window. -/
theorem admits_current (book : PollBook) : book.Admits book.current := by
  refine ⟨not_expired_of_le (Round.le_refl _), ?_⟩
  have small := book.current.height.toNat_lt
  unfold Distant
  rw [UInt64.lt_iff_toNat_lt, Word.toNat_saturatingAdd]
  simp only [UInt64.size]
  omega

/-- A later book keeps what an earlier one holds of the rounds in its window. -/
structure Grows (book later : PollBook) : Prop where
  window : later.window = book.window
  current : book.current ≤ later.current
  decision
    : ∀ {round outcome}, ¬ later.Expired round →
        book.decision round = some outcome → later.decision round = some outcome
  reported
    : ∀ {round}, ¬ later.Expired round →
        (book.poll round).futureReported = true → (later.poll round).futureReported = true

namespace Grows

theorem refl (book : PollBook) : Grows book book where
  window := rfl
  current := Round.le_refl _
  decision _ known := known
  reported _ marked := marked

theorem expired {book later : PollBook} (grows : Grows book later) {round : Round}
    (expired : book.Expired round)
    : later.Expired round := by
  have height := Round.height_le grows.current
  unfold Expired at expired ⊢
  rw [UInt64.lt_iff_toNat_lt] at expired ⊢
  rw [grows.window]
  omega

theorem trans {book middle later : PollBook} (first : Grows book middle)
    (second : Grows middle later)
    : Grows book later where
  window := second.window.trans first.window
  current := Round.le_trans first.current second.current
  decision kept known := second.decision kept (first.decision (mt second.expired kept) known)
  reported kept marked := second.reported kept (first.reported (mt second.expired kept) marked)

/-- A closed round stays closed. -/
theorem closed {book later : PollBook} (grows : Grows book later) {round : Round}
    (closed : book.Closed round)
    : later.Closed round := by
  by_cases gone : later.Expired round
  · exact .inl gone
  · rcases closed with expired | frozen
    · exact .inl (grows.expired expired)
    · obtain ⟨outcome, known⟩ := Option.isSome_iff_exists.mp frozen
      exact .inr (Option.isSome_iff_exists.mpr ⟨outcome, grows.decision gone known⟩)

/-- To store a poll for an undecided round loses nothing. -/
theorem put {book : PollBook} {poll : Poll} (undecided : book.decision poll.round = none)
    (reported
      : (book.poll poll.round).futureReported = true → poll.futureReported = true)
    : Grows book (book.put poll) where
  window := rfl
  current := Round.le_refl _
  decision {round outcome} _ known := by
    by_cases own : poll.round = round
    · rw [← own, undecided] at known
      cases known
    · rw [PollBook.decision, poll_put_of_ne own]
      exact known
  reported {round} _ marked := by
    by_cases own : poll.round = round
    · rw [poll_put_own own]
      exact reported (own ▸ marked)
    · rw [poll_put_of_ne own]
      exact marked

theorem insert (book : PollBook) (round : Round) (votes : List Vote)
    (electorate : Option Electorate)
    : Grows book (book.insert round votes electorate).1 := by
  rcases book.insert_cases round votes electorate with same | ⟨poll, -, active, alike, own, same⟩
  · rw [same]
    exact refl book
  · rw [same]
    refine put (own ▸ active) fun marked => alike.reported ?_
    rw [Poll.futureReported_insert, ← own]
    exact marked

theorem evaluate (book : PollBook) (round : Round) (electorate : Electorate)
    : Grows book (book.evaluate round electorate).1 := by
  rcases book.evaluate_cases round electorate with same | ⟨outcome, active, -, same⟩
  · rw [same]
    exact refl book
  · rw [same]
    have own := round_poll book round
    refine put ((congrArg book.decision own).trans active) ?_
    simp only [Poll.freeze, own]
    exact id

theorem advance (book : PollBook) (next : Round) : Grows book (book.advance next) where
  window := by
    unfold PollBook.advance
    split <;> rfl
  current := by
    unfold PollBook.advance
    split
    · exact Round.le_refl _
    · next new =>
        refine .inl (Round.rank_lt_rank.mp ?_)
        rw [← Round.rank_le_rank] at new
        exact Nat.lt_of_not_le new
  decision kept known := by rw [PollBook.decision, poll_advance kept]; exact known
  reported kept marked := by rw [poll_advance kept]; exact marked

end Grows

theorem current_advance (book : PollBook) (next : Round)
    : (book.advance next).current = if next ≤ book.current then book.current else next := by
  unfold advance
  split <;> rfl

/-- A book does not move back. -/
theorem advance_of_le {book : PollBook} {next : Round} (reached : next ≤ book.current)
    : book.advance next = book :=
  if_pos reached

/-- The poll of the round that a book moves on to stays as it is. -/
theorem poll_advance_own (book : PollBook) (round : Round)
    : (book.advance round).poll round = book.poll round := by
  by_cases behind : round ≤ book.current
  · rw [advance_of_le behind]
  · refine poll_advance (not_expired_of_le (.inr ?_))
    rw [current_advance, if_neg behind]

theorem decision_advance_own (book : PollBook) (round : Round)
    : (book.advance round).decision round = book.decision round :=
  congrArg Poll.decision (poll_advance_own book round)

/-- An advance decides nothing. -/
theorem decision_advance_of_none {book : PollBook} {round : Round}
    (undecided : book.decision round = none) (next : Round)
    : (book.advance next).decision round = none := by
  by_cases gone : (book.advance next).Expired round
  · unfold advance at gone ⊢
    split at gone
    · next old => rw [if_pos old]; exact undecided
    · next new =>
        rw [if_neg new]
        have below := (expired_iff _ _ _ _).mp gone
        have absent
            : ({ book with
                  current := next
                  polls := book.polls.filter fun poll =>
                    decide (Word.saturatingSub next.height book.window ≤ poll.round.height) }
                : PollBook).poll? round = none := by
          rw [poll?, List.find?_eq_none]
          intro poll member same
          have above := of_decide_eq_true (List.mem_filter.mp member).2
          rw [of_decide_eq_true same] at above
          exact UInt64.not_lt.mpr above below
        rw [decision, poll, absent]
        rfl
  · rw [decision, poll_advance gone]
    exact undecided

-----------------------------------------------------------------------------------------
-- Polls within the window
-----------------------------------------------------------------------------------------

/-- Only a poll with votes has an outcome, and such a poll is stored. -/
theorem mem_polls_of_outcome? {book : PollBook} {round : Round} {electorate : Electorate}
    {outcome : Outcome} (reached : (book.poll round).outcome? electorate = some outcome)
    : book.poll round ∈ book.polls := by
  rcases book.poll_mem_or_empty round with stored | untracked
  · exact stored
  · rw [untracked, Poll.outcome?_empty] at reached
    cases reached

/-- No poll is kept for a round behind the window. -/
def Trimmed (book : PollBook) : Prop :=
  ∀ poll ∈ book.polls, ¬ book.Expired poll.round

namespace Trimmed

theorem empty (window : UInt64) : (PollBook.empty window).Trimmed := by
  simp [Trimmed, PollBook.empty]

theorem put {book : PollBook} (trimmed : book.Trimmed) {poll : Poll}
    (inside : ¬ book.Expired poll.round)
    : (book.put poll).Trimmed :=
  forall_mem_put trimmed inside

theorem insert {book : PollBook} (trimmed : book.Trimmed) (round : Round) (votes : List Vote)
    (electorate : Option Electorate)
    : (book.insert round votes electorate).1.Trimmed := by
  rcases book.insert_cases round votes electorate with same | ⟨poll, admits, -, -, own, same⟩
  · rw [same]
    exact trimmed
  · rw [same]
    exact trimmed.put (own ▸ admits.1)

/-- A round with an outcome is in the window. -/
theorem not_expired_of_outcome? {book : PollBook} (trimmed : book.Trimmed) {round : Round}
    {electorate : Electorate} {outcome : Outcome}
    (reached : (book.poll round).outcome? electorate = some outcome)
    : ¬ book.Expired round := by
  exact round_poll book round ▸ trimmed _ (mem_polls_of_outcome? reached)

theorem evaluate {book : PollBook} (trimmed : book.Trimmed) (round : Round)
    (electorate : Electorate)
    : (book.evaluate round electorate).1.Trimmed := by
  rcases book.evaluate_cases round electorate with same | ⟨outcome, -, decides, same⟩
  · rw [same]
    exact trimmed
  · have inside := trimmed.not_expired_of_outcome? decides
    rw [← round_poll book round] at inside
    rw [same]
    refine trimmed.put ?_
    exact inside

theorem advance {book : PollBook} (trimmed : book.Trimmed) (next : Round)
    : (book.advance next).Trimmed := by
  unfold PollBook.advance
  split
  · exact trimmed
  · intro poll member expired
    have above := of_decide_eq_true (List.mem_filter.mp member).2
    exact UInt64.not_lt.mpr above ((expired_iff _ _ _ _).mp expired)

end Trimmed

end PollBook

end Quorum
