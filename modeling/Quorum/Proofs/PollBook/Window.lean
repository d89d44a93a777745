import Quorum.Proofs.PollBook.Permanence

/-! The window of a poll book. Whether a vote comes too late is told by a sum of heights, and what an
advance drops by a difference. Both stop at the limits of a word, and still they draw the same line at
all heights: a book tracks rounds in its window only, and drops a round just when votes for it would
come too late.
-/

namespace Quorum

/-- The height of the round is at most `window` away from that of the current round. -/
def Round.Near (round : Round) (window : UInt64) (current : Round) : Prop :=
  Word.saturatingSub current.height window ≤ round.height
  ∧ round.height ≤ Word.saturatingAdd current.height window

instance (round : Round) (window : UInt64) (current : Round)
    : Decidable (round.Near window current) :=
  inferInstanceAs (Decidable (_ ∧ _))

namespace PollBook

section

variable {book : PollBook} {round : Round}

-----------------------------------------------------------------------------------------
-- The limits of the window
-----------------------------------------------------------------------------------------

theorem not_expired_iff
    : ¬ book.Expired round
      ↔ Word.saturatingSub book.current.height book.window ≤ round.height := by
  rw [expired_iff book.window book.current round book.polls, UInt64.not_lt]

theorem admits_iff : book.Admits round ↔ round.Near book.window book.current :=
  and_congr not_expired_iff UInt64.not_lt

/-- The limits depend on the window and the current round alone. -/
theorem expired_congr {later : PollBook} (window : later.window = book.window)
    (current : later.current = book.current)
    : later.Expired round ↔ book.Expired round := by
  unfold Expired
  rw [window, current]

/-- A round that is not too far ahead stays so. -/
theorem Grows.not_distant {later : PollBook} (grows : Grows book later)
    (foreseen : ¬ book.Distant round)
    : ¬ later.Distant round := by
  have height := Round.height_le grows.current
  unfold Distant at foreseen ⊢
  rw [UInt64.lt_iff_toNat_lt, Word.toNat_saturatingAdd] at foreseen ⊢
  rw [grows.window]
  omega

/-- A round ahead of the window is ahead of the current one. -/
theorem lt_of_distant (distant : book.Distant round) : book.current < round := by
  by_contra behind
  have height := Round.height_le (Round.not_lt.mp behind)
  refine (admits_current book).2 ?_
  unfold Distant at distant ⊢
  rw [UInt64.lt_iff_toNat_lt] at distant ⊢
  omega

-----------------------------------------------------------------------------------------
-- Tracked rounds after an operation
-----------------------------------------------------------------------------------------

theorem tracks_put (poll : Poll)
    : (book.put poll).Tracks round ↔ poll.round = round ∨ book.Tracks round := by
  unfold Tracks
  rw [poll?_put]
  split
  · next own => simp [own]
  · next other => simp [other]

/-- Votes for a round out of the window are refused. -/
theorem insert_of_not_admits (outside : ¬ book.Admits round) (votes : List Vote)
    (electorate : Option Electorate)
    : book.insert round votes electorate = (book, ⟨.none, none⟩) := by
  rw [insert, if_pos]
  by_contra inside
  exact outside ⟨fun expired => inside (.inl expired), fun distant => inside (.inr (.inl distant))⟩

/-- An insertion makes a book track its own round if that lies in the window, and no other. -/
theorem tracks_insert_iff (votes : List Vote) (electorate : Option Electorate) (other : Round)
    : (book.insert round votes electorate).1.Tracks other
      ↔ book.Tracks other ∨ other = round ∧ book.Admits round := by
  have stored {poll : Poll} (admits : book.Admits round) (own : poll.round = round)
      : (book.put poll).Tracks other ↔ book.Tracks other ∨ other = round ∧ book.Admits round := by
    rw [tracks_put, own, or_comm, eq_comm, and_iff_left admits]
  generalize result : book.insert round votes electorate = receipt
  have ends := result ▸ book.insertion round votes electorate
  cases ends with
  | refused closed =>
      refine ⟨.inl, fun tracked => tracked.elim id ?_⟩
      rintro ⟨rfl, admits⟩
      obtain ⟨outcome, known⟩ := Option.isSome_iff_exists.mp (closed admits)
      obtain ⟨poll, found, -⟩ := poll?_of_decision known
      exact tracks_iff.mpr ⟨poll, found⟩
  | announced admits _ taken _ _ _ =>
      have own := round_of_taken taken
      exact stored admits own
  | retained admits _ taken _ _ | undecided admits _ taken _ _ =>
      exact stored admits (round_of_taken taken)
  | decided admits _ taken _ _ =>
      have own := round_of_taken taken
      exact stored admits own

theorem tracks_evaluate_iff (electorate : Electorate) (other : Round)
    : (book.evaluate round electorate).1.Tracks other ↔ book.Tracks other := by
  rcases book.evaluate_cases round electorate with same | ⟨outcome, -, decides, same⟩
  · rw [same]
  · rw [same, tracks_put, show ((book.poll round).freeze outcome).round = round from round_poll ..]
    refine ⟨fun tracked => tracked.elim ?_ id, .inr⟩
    rintro rfl
    exact tracks_of_outcome? decides

/-- An advance drops exactly the rounds whose votes come too late from then on. -/
theorem Trimmed.tracks_advance_iff (trimmed : book.Trimmed) (next : Round)
    : (book.advance next).Tracks round
      ↔ book.Tracks round ∧ ¬ (book.advance next).Expired round := by
  constructor
  · intro tracked
    have kept : ¬ (book.advance next).Expired round := fun expired =>
      (trimmed.advance next).not_tracks expired tracked
    rw [Tracks, poll?_advance kept] at tracked
    exact ⟨tracked, kept⟩
  · rintro ⟨tracked, kept⟩
    rwa [Tracks, poll?_advance kept]

-----------------------------------------------------------------------------------------
-- Histories
-----------------------------------------------------------------------------------------

/-- All tracked rounds lie in the window. -/
structure Confined (book : PollBook) : Prop where
  trimmed : book.Trimmed
  foreseen : ∀ round, book.Tracks round → ¬ book.Distant round

theorem Confined.admits (confined : book.Confined) (tracked : book.Tracks round)
    : book.Admits round :=
  ⟨fun expired => confined.trimmed.not_tracks expired tracked, confined.foreseen round tracked⟩

theorem confined_empty (window : UInt64) : (PollBook.empty window).Confined where
  trimmed := .empty window
  foreseen _ tracked := nomatch tracked

/-- A round is tracked newly only if it lies in the window. -/
theorem Confined.admits_of_apply (confined : book.Confined) {action : Action}
    (tracked : (action.apply book).Tracks round)
    : book.Admits round := by
  cases action with
  | insert own votes electorate =>
      rcases (tracks_insert_iff votes electorate round).mp tracked with earlier | ⟨rfl, admits⟩
      · exact confined.admits earlier
      · exact admits
  | evaluate own electorate =>
      exact confined.admits ((tracks_evaluate_iff electorate round).mp tracked)
  | advance next =>
      exact confined.admits ((confined.trimmed.tracks_advance_iff next).mp tracked).1

theorem Confined.apply (confined : book.Confined) (action : Action)
    : (action.apply book).Confined where
  trimmed := confined.trimmed.apply action
  foreseen _ tracked := (Grows.apply book action).not_distant (confined.admits_of_apply tracked).2

theorem Confined.after (confined : book.Confined) (history : List Action)
    : (book.after history).Confined := by
  induction history generalizing book with
  | nil => exact confined
  | cons action rest ih => exact ih (confined.apply action)

end

/-- The limits at the ends of the heights: a window of zero admits one height, the largest all. -/
example
    : (PollBook.mk 0 ⟨5, 3⟩ []).Admits ⟨5, 0⟩ ∧ (PollBook.mk 0 ⟨5, 3⟩ []).Expired ⟨4, 9⟩
      ∧ (PollBook.mk 0 ⟨5, 3⟩ []).Distant ⟨6, 0⟩ ∧ (PollBook.mk (0 - 1) ⟨0 - 1, 0⟩ []).Admits ⟨0, 0⟩
      ∧ (PollBook.mk (0 - 1) ⟨0, 0⟩ []).Admits ⟨0 - 1, 0⟩ := by
  decide

end PollBook

end Quorum
