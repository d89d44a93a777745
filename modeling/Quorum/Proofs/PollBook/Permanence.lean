import Quorum.Proofs.PollBook.Arrival
import Quorum.Proofs.PollBook.Growth

/-! Decisions are permanent. Whatever is done to a poll book, a decided poll stays as it is until its
round falls out of the window; the poll is then dropped, and the round never has one again.
-/

namespace Quorum

namespace PollBook

-----------------------------------------------------------------------------------------
-- Tracked rounds
-----------------------------------------------------------------------------------------

/-- The book holds a poll of the round. -/
def Tracks (book : PollBook) (round : Round) : Prop :=
  (book.poll? round).isSome

instance (book : PollBook) (round : Round) : Decidable (book.Tracks round) :=
  inferInstanceAs (Decidable (_ = true))

section

variable {book : PollBook} {round : Round}

theorem tracks_iff : book.Tracks round ↔ ∃ poll, book.poll? round = some poll :=
  Option.isSome_iff_exists

theorem poll?_of_decision {outcome : Outcome} (known : book.decision round = some outcome)
    : ∃ poll, book.poll? round = some poll ∧ poll.decision = some outcome := by
  unfold decision poll at known
  cases found : book.poll? round with
  | none =>
      rw [found] at known
      cases known
  | some poll =>
      rw [found] at known
      exact ⟨poll, rfl, known⟩

theorem decision_of_untracked (untracked : ¬ book.Tracks round) : book.decision round = none := by
  cases known : book.decision round with
  | none => rfl
  | some outcome =>
      obtain ⟨poll, found, -⟩ := poll?_of_decision known
      exact absurd (tracks_iff.mpr ⟨poll, found⟩) untracked

/-- A round whose votes imply an outcome has a poll. -/
theorem tracks_of_outcome? {electorate : Electorate} {outcome : Outcome}
    (reached : (book.poll round).outcome? electorate = some outcome)
    : book.Tracks round := by
  rw [Tracks, poll?, List.find?_isSome]
  exact ⟨_, mem_polls_of_outcome? reached, by simp⟩

/-- A round behind the window has no poll. -/
theorem Trimmed.not_tracks (trimmed : book.Trimmed) (expired : book.Expired round)
    : ¬ book.Tracks round := by
  intro tracked
  obtain ⟨poll, found⟩ := tracks_iff.mp tracked
  have inside := trimmed poll (List.mem_of_find?_eq_some found)
  rw [round_of_poll? found] at inside
  exact inside expired

-----------------------------------------------------------------------------------------
-- One action
-----------------------------------------------------------------------------------------

/-- An action changes nothing, stores a poll for an undecided round, or moves the book on. -/
theorem apply_cases (book : PollBook) (action : Action)
    : action.apply book = book
      ∨ (∃ poll, book.decision poll.round = none ∧ action.apply book = book.put poll)
      ∨ ∃ next, action.apply book = book.advance next := by
  cases action with
  | insert round votes electorate =>
      rcases book.insert_cases round votes electorate with same | ⟨poll, -, active, -, own, same⟩
      · exact .inl same
      · exact .inr (.inl ⟨poll, own ▸ active, same⟩)
  | evaluate round electorate =>
      rcases book.evaluate_cases round electorate with same | ⟨outcome, active, -, same⟩
      · exact .inl same
      · refine .inr (.inl ⟨(book.poll round).freeze outcome, ?_, same⟩)
        exact (congrArg book.decision (round_poll book round)).trans active
  | advance next => exact .inr (.inr ⟨next, rfl⟩)

/-- An action keeps the poll of a round that stays in the window, and all of it if it is decided. -/
theorem poll?_apply {action : Action} {poll : Poll} (found : book.poll? round = some poll)
    (kept : ¬ (action.apply book).Expired round)
    : ∃ later, (action.apply book).poll? round = some later ∧ (poll.Frozen → later = poll) := by
  rcases book.apply_cases action with same | ⟨stored, undecided, same⟩ | ⟨next, same⟩
  · exact ⟨poll, by rw [same, found], fun _ => rfl⟩
  · rw [same, poll?_put]
    by_cases own : stored.round = round
    · refine ⟨stored, if_pos own, fun frozen => ?_⟩
      rw [own, decision, PollBook.poll, found, Option.getD_some] at undecided
      exact absurd undecided (Option.isSome_iff_ne_none.mp frozen)
    · exact ⟨poll, (if_neg own).trans found, fun _ => rfl⟩
  · rw [same] at kept ⊢
    exact ⟨poll, (poll?_advance kept).trans found, fun _ => rfl⟩

theorem Grows.apply (book : PollBook) (action : Action) : Grows book (action.apply book) := by
  cases action with
  | insert round votes electorate => exact .insert book round votes electorate
  | evaluate round electorate => exact .evaluate book round electorate
  | advance next => exact .advance book next

theorem Trimmed.apply (trimmed : book.Trimmed) (action : Action)
    : (action.apply book).Trimmed := by
  cases action with
  | insert round votes electorate => exact trimmed.insert round votes electorate
  | evaluate round electorate => exact trimmed.evaluate round electorate
  | advance next => exact trimmed.advance next

-----------------------------------------------------------------------------------------
-- Histories
-----------------------------------------------------------------------------------------

theorem Grows.after (book : PollBook) (history : List Action)
    : Grows book (book.after history) := by
  induction history generalizing book with
  | nil => exact .refl book
  | cons action rest ih => exact (Grows.apply book action).trans (ih (action.apply book))

theorem Trimmed.after (trimmed : book.Trimmed) (history : List Action)
    : (book.after history).Trimmed := by
  induction history generalizing book with
  | nil => exact trimmed
  | cons action rest ih => exact ih (trimmed.apply action)

/-- By induction on the history. A round that is in the window at the end was so all the time, since
a later window never goes back.
-/
theorem poll?_after {history : List Action} {poll : Poll} (found : book.poll? round = some poll)
    (kept : ¬ (book.after history).Expired round)
    : ∃ later, (book.after history).poll? round = some later ∧ (poll.Frozen → later = poll) := by
  induction history generalizing book poll with
  | nil => exact ⟨poll, found, fun _ => rfl⟩
  | cons action rest ih =>
      have within : ¬ (action.apply book).Expired round :=
        mt (Grows.after (action.apply book) rest).expired kept
      obtain ⟨next, stored, same⟩ := poll?_apply found within
      obtain ⟨later, stored', same'⟩ := ih stored kept
      refine ⟨later, stored', fun frozen => ?_⟩
      obtain rfl := same frozen
      exact same' frozen

/-- A tracked round is dropped only when it falls out of the window. -/
theorem Trimmed.tracks_after_iff (trimmed : book.Trimmed) (tracked : book.Tracks round)
    (history : List Action)
    : (book.after history).Tracks round ↔ ¬ (book.after history).Expired round := by
  constructor
  · exact fun still expired => (trimmed.after history).not_tracks expired still
  · intro kept
    obtain ⟨poll, found⟩ := tracks_iff.mp tracked
    obtain ⟨later, stored, -⟩ := poll?_after found kept
    exact tracks_iff.mpr ⟨later, stored⟩

-----------------------------------------------------------------------------------------
-- What is asked of a decided or a dropped round
-----------------------------------------------------------------------------------------

theorem insert_of_closed (closed : book.Closed round) (votes : List Vote)
    (electorate : Option Electorate)
    : book.insert round votes electorate = (book, ⟨.none, none⟩) := by
  rw [PollBook.insert, if_pos]
  exact closed.imp_right .inr

theorem evaluate_of_decision {outcome : Outcome} (known : book.decision round = some outcome)
    (electorate : Electorate)
    : book.evaluate round electorate = (book, some ⟨outcome, false⟩) := by
  obtain ⟨poll, found, decided⟩ := poll?_of_decision known
  rw [PollBook.evaluate, found]
  simp only [decided]

/-- An undecided round is decided by the votes that are held, if these suffice. -/
theorem evaluate_of_decides {electorate : Electorate} {outcome : Outcome}
    (undecided : book.decision round = none)
    (decides : (book.poll round).outcome? electorate = some outcome)
    : book.evaluate round electorate
      = (book.put ((book.poll round).freeze outcome), some ⟨outcome, true⟩) := by
  generalize result : book.evaluate round electorate = ruling
  have ends := result ▸ book.evaluation round electorate
  cases ends with
  | untracked absent =>
      rw [PollBook.poll, absent, Option.getD_none, Poll.outcome?_empty] at decides
      cases decides
  | stored known => cases undecided.symm.trans known
  | undecided _ open_still => cases open_still.symm.trans decides
  | decided _ decides' =>
      obtain rfl := Option.some.inj (decides'.symm.trans decides)
      rfl

theorem evaluate_of_open {electorate : Electorate} (undecided : book.decision round = none)
    (open_still : (book.poll round).outcome? electorate = none)
    : book.evaluate round electorate = (book, none) := by
  generalize result : book.evaluate round electorate = ruling
  have ends := result ▸ book.evaluation round electorate
  cases ends with
  | untracked _ | undecided _ _ => rfl
  | stored known => cases undecided.symm.trans known
  | decided _ decides => cases open_still.symm.trans decides

/-- Evaluated again, a book stays as it is, and gives what it gave before as a known decision. -/
theorem evaluate_again {later : PollBook} {electorate : Electorate} {ruling : Option Ruling}
    (evaluated : book.evaluate round electorate = (later, ruling))
    : later.evaluate round electorate
      = (later, ruling.map fun found => ⟨found.outcome, false⟩) := by
  have ends := evaluated ▸ book.evaluation round electorate
  cases ends with
  | untracked _ | stored _ | undecided _ _ => exact evaluated
  | decided active _ =>
      exact evaluate_of_decision (decision_put_freeze (round_poll book round) active _) electorate

theorem evaluate_of_untracked (untracked : ¬ book.Tracks round) (electorate : Electorate)
    : book.evaluate round electorate = (book, none) := by
  rw [PollBook.evaluate, Option.not_isSome_iff_eq_none.mp untracked]

end

/-- Whatever was done to a book and is done to it later: a closed round stays closed, and votes for
it are refused. A decided poll stays what it is, votes, voters and evidence included, and every
evaluation tells its decision as a known one, as long as the round is tracked. A tracked round is
dropped when it falls out of the window and not before; it then never has a poll again, and neither
votes for it nor evaluations of it lead to anything.
-/
theorem decisions_permanent (window : UInt64) (first second : List Action) (round : Round)
    : let earlier := (PollBook.empty window).after first
      let later := earlier.after second
      (earlier.Closed round →
          later.Closed round
          ∧ ∀ votes electorate, later.insert round votes electorate = (later, ⟨.none, none⟩))
      ∧ (∀ outcome, earlier.decision round = some outcome →
          (later.Tracks round ∧ later.poll round = earlier.poll round
            ∧ later.decision round = some outcome
            ∧ ∀ electorate, later.evaluate round electorate = (later, some ⟨outcome, false⟩))
          ∨ (¬ later.Tracks round ∧ later.decision round = none))
      ∧ (earlier.Tracks round → (later.Tracks round ↔ ¬ later.Expired round))
      ∧ (earlier.Tracks round → ¬ later.Tracks round → ∀ third,
          let last := later.after third
          ¬ last.Tracks round
          ∧ (∀ votes electorate, last.insert round votes electorate = (last, ⟨.none, none⟩))
          ∧ ∀ electorate, last.evaluate round electorate = (last, none)) := by
  intro earlier later
  have trimmed : earlier.Trimmed := (Trimmed.empty window).after first
  have tracked_iff (tracked : earlier.Tracks round)
      : later.Tracks round ↔ ¬ later.Expired round :=
    trimmed.tracks_after_iff tracked second
  refine ⟨?_, ?_, tracked_iff, ?_⟩
  · intro closed
    have closed' : later.Closed round := (Grows.after earlier second).closed closed
    exact ⟨closed', insert_of_closed closed'⟩
  · intro outcome known
    obtain ⟨poll, found, decided⟩ := poll?_of_decision known
    have tracked : earlier.Tracks round := tracks_iff.mpr ⟨poll, found⟩
    by_cases still : later.Tracks round
    · have kept := (tracked_iff tracked).mp still
      obtain ⟨same, stored, equal⟩ := poll?_after found kept
      obtain rfl := equal (Option.isSome_iff_exists.mpr ⟨outcome, decided⟩)
      have known' := (Grows.after earlier second).decision kept known
      refine .inl ⟨still, ?_, known', evaluate_of_decision known'⟩
      rw [PollBook.poll, PollBook.poll, stored, found]
    · exact .inr ⟨still, decision_of_untracked still⟩
  · intro tracked dropped third last
    have expired : later.Expired round := not_not.mp (mt (tracked_iff tracked).mpr dropped)
    have expired' : last.Expired round := (Grows.after later third).expired expired
    have untracked : ¬ last.Tracks round :=
      ((trimmed.after second).after third).not_tracks expired'
    exact ⟨untracked, insert_of_closed (.inl expired'), evaluate_of_untracked untracked⟩

end PollBook

end Quorum
