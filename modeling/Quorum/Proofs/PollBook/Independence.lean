import Quorum.Proofs.PollBook.Window

/-! Rounds are independent. What is done to a poll book for one round neither changes the polls of
others nor what it answers about them. Only the moves of the current round are about all rounds:
they tell which of them are ahead, and drop those that fall out of the window.
-/

namespace Quorum

/-- What an action on a book gives. -/
inductive PollBook.Answer where
  | receipt (receipt : Receipt)
  | ruling (ruling : Option Ruling)
  | moved
  deriving DecidableEq

namespace PollBook

-----------------------------------------------------------------------------------------
-- Answers
-----------------------------------------------------------------------------------------

def Action.answer (book : PollBook) : Action → Answer
  | .insert round votes electorate => .receipt (book.insert round votes electorate).2
  | .evaluate round electorate => .ruling (book.evaluate round electorate).2
  | .advance _ => .moved

/-- The action is about the round. A move of the current round is about all rounds. -/
def Action.Concerns (round : Round) : Action → Prop
  | .insert own _ _ | .evaluate own _ => own = round
  | .advance _ => True

instance (round : Round) (action : Action) : Decidable (action.Concerns round) :=
  match action with
  | .insert own _ _ | .evaluate own _ => inferInstanceAs (Decidable (own = round))
  | .advance _ => inferInstanceAs (Decidable True)

/-- The actions of a history that are about the round. -/
def concerning (round : Round) (history : List Action) : List Action :=
  history.filter fun action => decide (action.Concerns round)

theorem concerning_of_own {round : Round} {action : Action} (own : action.Concerns round)
    (rest : List Action)
    : concerning round (action :: rest) = action :: concerning round rest :=
  List.filter_cons_of_pos (decide_eq_true own)

theorem concerning_of_foreign {round : Round} {action : Action} (foreign : ¬ action.Concerns round)
    (rest : List Action)
    : concerning round (action :: rest) = concerning round rest :=
  List.filter_cons_of_neg (by simpa using foreign)

/-- The answers to the actions of a history that are about the round, in order. -/
def answers (round : Round) (book : PollBook) : List Action → List Answer
  | [] => []
  | action :: rest =>
      (if action.Concerns round then [action.answer book] else [])
        ++ answers round (action.apply book) rest

-----------------------------------------------------------------------------------------
-- Books that agree on a round
-----------------------------------------------------------------------------------------

/-- The books have the same window, the same current round and the same poll of the round, or none.
-/
structure Agree (round : Round) (left right : PollBook) : Prop where
  window : left.window = right.window
  current : left.current = right.current
  poll? : left.poll? round = right.poll? round

namespace Agree

variable {round : Round} {left middle right : PollBook}

theorem refl (round : Round) (book : PollBook) : Agree round book book :=
  ⟨rfl, rfl, rfl⟩

theorem symm (agree : Agree round left right) : Agree round right left :=
  ⟨agree.window.symm, agree.current.symm, agree.poll?.symm⟩

theorem trans (agree : Agree round left middle) (agree' : Agree round middle right)
    : Agree round left right :=
  ⟨agree.window.trans agree'.window, agree.current.trans agree'.current,
    agree.poll?.trans agree'.poll?⟩

theorem poll (agree : Agree round left right) : left.poll round = right.poll round := by
  rw [PollBook.poll, PollBook.poll, agree.poll?]

theorem expired_iff (agree : Agree round left right) (other : Round)
    : left.Expired other ↔ right.Expired other :=
  expired_congr agree.window agree.current

theorem distant_iff (agree : Agree round left right) (other : Round)
    : left.Distant other ↔ right.Distant other := by
  rw [Distant, Distant, agree.window, agree.current]

theorem closed_iff (agree : Agree round left right)
    : left.Closed round ↔ right.Closed round := by
  rw [Closed, Closed, agree.expired_iff, agree.poll]

theorem put (agree : Agree round left right) (poll : Poll)
    : Agree round (left.put poll) (right.put poll) where
  window := agree.window
  current := agree.current
  poll? := by rw [poll?_put, poll?_put, agree.poll?]

end Agree

section

variable {round : Round} {book left right : PollBook}

/-- A poll of another round does not matter. -/
theorem agree_put {poll : Poll} (other : poll.round ≠ round)
    : Agree round book (book.put poll) where
  window := rfl
  current := rfl
  poll? := by rw [poll?_put, if_neg other]

-----------------------------------------------------------------------------------------
-- One action
-----------------------------------------------------------------------------------------

/-- An action on another round changes nothing for this one. -/
theorem agree_apply {action : Action} (foreign : ¬ action.Concerns round)
    : Agree round book (action.apply book) := by
  cases action with
  | insert own votes electorate =>
      rcases book.insert_cases own votes electorate with same | ⟨poll, -, -, -, stored, same⟩
      · rw [Action.apply, same]
        exact .refl round book
      · rw [Action.apply, same]
        exact agree_put (stored ▸ foreign)
  | evaluate own electorate =>
      rcases book.evaluate_cases own electorate with same | ⟨outcome, -, -, same⟩
      · rw [Action.apply, same]
        exact .refl round book
      · rw [Action.apply, same]
        refine agree_put ?_
        rwa [show ((book.poll own).freeze outcome).round = own from round_poll book own]
  | advance next => exact absurd trivial foreign

/-- Books that agree on a round take in votes for it alike. -/
theorem Agree.insert (agree : Agree round left right) (votes : List Vote)
    (electorate : Option Electorate)
    : (left.insert round votes electorate).2 = (right.insert round votes electorate).2
      ∧ Agree round (left.insert round votes electorate).1
          (right.insert round votes electorate).1 := by
  unfold PollBook.insert
  simp only [agree.poll, agree.current, agree.expired_iff, agree.distant_iff]
  split
  · exact ⟨rfl, agree⟩
  split
  · split <;> exact ⟨rfl, agree.put _⟩
  · cases electorate.bind ((right.poll round).insert votes).1.outcome? with
    | none => exact ⟨rfl, agree.put _⟩
    | some outcome => exact ⟨rfl, agree.put _⟩

/-- Books that agree on a round decide it alike. -/
theorem Agree.evaluate (agree : Agree round left right) (electorate : Electorate)
    : (left.evaluate round electorate).2 = (right.evaluate round electorate).2
      ∧ Agree round (left.evaluate round electorate).1 (right.evaluate round electorate).1 := by
  unfold PollBook.evaluate
  rw [agree.poll?]
  split
  · exact ⟨rfl, agree⟩
  split
  · exact ⟨rfl, agree⟩
  · exact ⟨rfl, agree.put _⟩
  · exact ⟨rfl, agree⟩

/-- A move ahead drops exactly the polls that are behind the window then. -/
theorem poll?_advance_of_ahead {next : Round} (ahead : ¬ next ≤ book.current)
    : (book.advance next).poll? round
      = if (book.advance next).Expired round then none else book.poll? round := by
  split
  · next expired =>
      unfold advance at expired ⊢
      rw [if_neg ahead] at expired ⊢
      have below := (expired_iff _ _ _ _).mp expired
      refine List.find?_eq_none.mpr fun poll member own => ?_
      have above := of_decide_eq_true (List.mem_filter.mp member).2
      rw [of_decide_eq_true own] at above
      exact UInt64.not_le.mpr below above
  · next kept => exact poll?_advance kept

/-- Books that agree on a round move on alike. -/
theorem Agree.advance (agree : Agree round left right) (next : Round)
    : Agree round (left.advance next) (right.advance next) := by
  have window : (left.advance next).window = (right.advance next).window := by
    rw [(Grows.advance left next).window, (Grows.advance right next).window, agree.window]
  have current : (left.advance next).current = (right.advance next).current := by
    rw [current_advance, current_advance, agree.current]
  refine ⟨window, current, ?_⟩
  by_cases behind : next ≤ left.current
  · rw [advance_of_le behind, advance_of_le (agree.current ▸ behind), agree.poll?]
  · rw [poll?_advance_of_ahead behind, poll?_advance_of_ahead (agree.current ▸ behind), agree.poll?]
    simp only [expired_congr window.symm current.symm]

theorem Agree.apply (agree : Agree round left right) {action : Action}
    (own : action.Concerns round)
    : action.answer left = action.answer right
      ∧ Agree round (action.apply left) (action.apply right) := by
  cases action with
  | insert other votes electorate =>
      obtain rfl : other = round := own
      obtain ⟨same, still⟩ := agree.insert votes electorate
      exact ⟨congrArg Answer.receipt same, still⟩
  | evaluate other electorate =>
      obtain rfl : other = round := own
      obtain ⟨same, still⟩ := agree.evaluate electorate
      exact ⟨congrArg Answer.ruling same, still⟩
  | advance next => exact ⟨rfl, agree.advance next⟩

-----------------------------------------------------------------------------------------
-- Histories
-----------------------------------------------------------------------------------------

/-- By induction on the history. An action on another round is one of the left book alone, and the
books still agree after it.
-/
theorem Agree.after (agree : Agree round left right) (history : List Action)
    : answers round left history = answers round right (concerning round history)
      ∧ Agree round (left.after history) (right.after (concerning round history)) := by
  induction history generalizing left right with
  | nil => exact ⟨rfl, agree⟩
  | cons action rest ih =>
      by_cases own : action.Concerns round
      · obtain ⟨same, still⟩ := agree.apply own
        obtain ⟨later, agree'⟩ := ih still
        rw [concerning_of_own own]
        refine ⟨?_, agree'⟩
        simp only [answers, if_pos own, same]
        exact congrArg _ later
      · have still : Agree round (action.apply left) right :=
          (agree_apply own).symm.trans agree
        rw [concerning_of_foreign own]
        simp only [answers, if_neg own, List.nil_append]
        exact ih still

end

/-- Without the insertions and evaluations of all other rounds, a history gives a round the same
answers and, wherever it ends, the same poll or none, with its votes, voters, evidence and decision;
the current round is the same, and so is whether the round is closed. Hence histories that differ in
what they do for other rounds, and in how this is mixed with what concerns the round, cannot be told
apart from within the round.
-/
theorem rounds_independent (window : UInt64) (round : Round) (history : List Action)
    : let book := (empty window).after history
      let alone := (empty window).after (concerning round history)
      (answers round (empty window) history
          = answers round (empty window) (concerning round history)
        ∧ book.poll? round = alone.poll? round ∧ book.current = alone.current
        ∧ (book.Closed round ↔ alone.Closed round))
      ∧ ∀ mixed, concerning round mixed = concerning round history →
          let other := (empty window).after mixed
          answers round (empty window) mixed = answers round (empty window) history
          ∧ other.poll? round = book.poll? round ∧ other.current = book.current
          ∧ (other.Closed round ↔ book.Closed round) := by
  intro book alone
  have projects (history : List Action) := (Agree.refl round (empty window)).after history
  obtain ⟨same, agree⟩ := projects history
  refine ⟨⟨same, agree.poll?, agree.current, agree.closed_iff⟩, fun mixed alike => ?_⟩
  obtain ⟨same', agree'⟩ := projects mixed
  rw [alike] at same' agree'
  have both := agree'.trans agree.symm
  exact ⟨same'.trans same.symm, both.poll?, both.current, both.closed_iff⟩

/-- Votes that decide the current round come in before or in between the votes for its retry. These
are announced and held alike both times.
-/
theorem rounds_independent_of_retry
    : let cast (number : UInt8) : Action :=
        .insert ⟨5, 0⟩ [.numbered number (.numbered 1)] (some ⟨.four, none⟩)
      let retry (number : UInt8) : Action :=
        .insert ⟨5, 1⟩ [.numbered number (.empty ⟨5, 1⟩)] (some ⟨.four, none⟩)
      let early := [.advance ⟨5, 0⟩, cast 1, cast 2, cast 3, retry 1, retry 2]
      let mixed := [.advance ⟨5, 0⟩, retry 1, cast 1, cast 3, retry 2, cast 2]
      concerning ⟨5, 1⟩ mixed = concerning ⟨5, 1⟩ early
      ∧ (((empty 10).after mixed).decision ⟨5, 0⟩).isSome
      ∧ (((empty 10).after mixed).poll ⟨5, 1⟩).votes.length = 2
      ∧ answers ⟨5, 1⟩ (empty 10) mixed = answers ⟨5, 1⟩ (empty 10) early
      ∧ ((empty 10).after mixed).poll? ⟨5, 1⟩ = ((empty 10).after early).poll? ⟨5, 1⟩ := by
  intro cast retry early mixed
  have same := (rounds_independent 10 ⟨5, 1⟩ early).2 mixed rfl
  exact ⟨rfl, by decide, by decide, same.1, same.2.1⟩

end PollBook

end Quorum
