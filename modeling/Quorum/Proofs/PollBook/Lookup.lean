import Quorum.PollBook
import Quorum.Proofs.Poll.Counting

/-! The poll of a round after each operation on a poll book: insertions and evaluations touch the
poll of their own round only, and an advance keeps the polls of all rounds in the window.
-/

namespace Quorum

theorem Round.not_lt {left right : Round} : ¬ left < right ↔ right ≤ left := by
  rw [← Round.rank_lt_rank, ← Round.rank_le_rank, Nat.not_lt]

/-- The other poll has the same votes and evidence. Its decision may differ, and its mark be new. -/
structure Poll.Alike (poll other : Poll) : Prop where
  round : other.round = poll.round
  voters : other.voters = poll.voters
  piles : other.piles = poll.piles
  evidence : other.evidence = poll.evidence
  reported : poll.futureReported = true → other.futureReported = true

theorem Poll.Alike.refl (poll : Poll) : poll.Alike poll :=
  ⟨rfl, rfl, rfl, rfl, id⟩

theorem Poll.alike_reportFuture (poll : Poll) : poll.Alike poll.reportFuture.1 :=
  ⟨rfl, rfl, rfl, rfl, fun _ => rfl⟩

theorem Poll.alike_freeze (poll : Poll) (outcome : Outcome) : poll.Alike (poll.freeze outcome) :=
  ⟨rfl, rfl, rfl, rfl, id⟩

namespace PollBook

-----------------------------------------------------------------------------------------
-- Stored polls
-----------------------------------------------------------------------------------------

theorem round_of_poll? {book : PollBook} {round : Round} {poll : Poll}
    (found : book.poll? round = some poll)
    : poll.round = round := by
  simpa using List.find?_some found

@[simp] theorem round_poll (book : PollBook) (round : Round)
    : (book.poll round).round = round := by
  unfold poll
  cases found : book.poll? round with
  | none => rfl
  | some poll => exact round_of_poll? found

/-- Storing a poll changes what is found for its round alone. -/
theorem poll?_put (book : PollBook) (poll : Poll) (round : Round)
    : (book.put poll).poll? round
      = if poll.round = round then some poll else book.poll? round := by
  have general (polls : List Poll)
      : (store poll polls).find? (fun entry => decide (entry.round = round))
        = if poll.round = round then some poll
          else polls.find? (fun entry => decide (entry.round = round)) := by
    induction polls with
    | nil => by_cases own : poll.round = round <;> simp [store, own]
    | cons head rest ih =>
        unfold store
        split
        · by_cases own : poll.round = round <;> simp [own]
        · next later =>
            split
            · next same => by_cases own : poll.round = round <;> simp [own, ← same]
            · next differ =>
                rw [List.find?_cons, ih]
                by_cases own : poll.round = round
                · simp [own, show head.round ≠ round from own ▸ Ne.symm differ]
                · simp [List.find?_cons, own]
  exact general book.polls

theorem poll_put_own {book : PollBook} {poll : Poll} {round : Round} (own : poll.round = round)
    : (book.put poll).poll round = poll := by
  simp [PollBook.poll, poll?_put, own]

theorem poll_put_of_ne {book : PollBook} {poll : Poll} {round : Round}
    (other : poll.round ≠ round)
    : (book.put poll).poll round = book.poll round := by
  simp [PollBook.poll, poll?_put, other]

theorem decision_put_freeze {book : PollBook} {poll : Poll} {round : Round}
    (own : poll.round = round) (undecided : poll.decision = none) (outcome : Outcome)
    : (book.put (poll.freeze outcome)).decision round = some outcome := by
  rw [decision, poll_put_own (by exact own), Poll.freeze, undecided]
  rfl

theorem mem_polls_put {book : PollBook} {poll entry : Poll}
    (member : entry ∈ (book.put poll).polls)
    : entry = poll ∨ entry ∈ book.polls := by
  have general (polls : List Poll) (inside : entry ∈ store poll polls)
      : entry = poll ∨ entry ∈ polls := by
    induction polls with
    | nil => exact .inl (List.mem_singleton.mp inside)
    | cons head rest ih =>
        unfold store at inside
        split at inside
        · exact List.mem_cons.mp inside
        · split at inside
          · exact (List.mem_cons.mp inside).imp_right (List.mem_cons_of_mem _)
          · rcases List.mem_cons.mp inside with first | later
            · exact .inr (first ▸ List.mem_cons_self)
            · exact (ih later).imp_right (List.mem_cons_of_mem _)
  exact general book.polls member

/-- The poll of a round is a stored one, or empty. -/
theorem poll_mem_or_empty (book : PollBook) (round : Round)
    : book.poll round ∈ book.polls ∨ book.poll round = .empty round := by
  unfold poll
  cases found : book.poll? round with
  | none => exact .inr rfl
  | some poll => exact .inl (List.mem_of_find?_eq_some found)

section

variable {book : PollBook} {property : Poll → Prop}

theorem forall_mem_put (all : ∀ entry ∈ book.polls, property entry) {poll : Poll}
    (also : property poll)
    : ∀ entry ∈ (book.put poll).polls, property entry := by
  intro entry member
  rcases mem_polls_put member with rfl | old
  · exact also
  · exact all entry old

/-- What holds of the stored polls and of one without votes holds of the poll of each round. -/
theorem poll_of_forall_mem (all : ∀ entry ∈ book.polls, property entry) {round : Round}
    (untracked : property (.empty round))
    : property (book.poll round) := by
  rcases book.poll_mem_or_empty round with tracked | empty
  · exact all _ tracked
  · rw [empty]
    exact untracked

end

-----------------------------------------------------------------------------------------
-- The window
-----------------------------------------------------------------------------------------

/-- The round lies in the window. -/
def Admits (book : PollBook) (round : Round) : Prop :=
  ¬ book.Expired round ∧ ¬ book.Distant round

instance (book : PollBook) (round : Round) : Decidable (book.Admits round) :=
  inferInstanceAs (Decidable (_ ∧ _))

/-- A round is behind the window of a later round if its height is below the floor there. -/
theorem expired_iff (window : UInt64) (current round : Round) (polls : List Poll)
    : (PollBook.mk window current polls).Expired round
      ↔ round.height < Word.saturatingSub current.height window := by
  have small := current.height.toNat_lt
  unfold Expired
  rw [UInt64.lt_iff_toNat_lt, UInt64.lt_iff_toNat_lt, Word.toNat_saturatingAdd,
    Word.toNat_saturatingSub]
  simp only [UInt64.size]
  omega

/-- An advance drops no poll of a round that stays in the window. -/
theorem poll?_advance {book : PollBook} {next round : Round}
    (kept : ¬ (book.advance next).Expired round)
    : (book.advance next).poll? round = book.poll? round := by
  unfold advance at kept ⊢
  split at kept
  · next old => rw [if_pos old]
  · next new =>
      rw [if_neg new]
      have above := UInt64.not_lt.mp (mt (expired_iff _ _ _ _).mpr kept)
      simp only [poll?, List.find?_filter]
      congr 1
      funext poll
      by_cases same : poll.round = round <;> simp [same, above]

theorem poll_advance {book : PollBook} {next round : Round}
    (kept : ¬ (book.advance next).Expired round)
    : (book.advance next).poll round = book.poll round := by
  rw [poll, poll, poll?_advance kept]

theorem mem_polls_advance {book : PollBook} {next : Round} {poll : Poll}
    (member : poll ∈ (book.advance next).polls)
    : poll ∈ book.polls := by
  unfold advance at member
  split at member
  · exact member
  · exact (List.mem_filter.mp member).1

theorem not_current_lt_advance (book : PollBook) (next : Round)
    : ¬ (book.advance next).current < next := by
  unfold advance
  split
  · next old => exact Round.not_lt.mpr old
  · exact Round.not_lt.mpr (.inr rfl)

/-- A round once reached stays so. -/
theorem not_current_advance_lt {book : PollBook} {round : Round} (reached : ¬ book.current < round)
    (next : Round)
    : ¬ (book.advance next).current < round := by
  unfold advance
  split
  · exact reached
  · next new =>
      rw [Round.not_lt, ← Round.rank_le_rank] at reached ⊢
      rw [← Round.rank_le_rank] at new
      simp only
      omega

-----------------------------------------------------------------------------------------
-- What an insertion does
-----------------------------------------------------------------------------------------

theorem round_of_taken {book : PollBook} {round : Round} {votes : List Vote} {poll : Poll}
    {intake : Intake} (taken : (book.poll round).insert votes = (poll, intake))
    : poll.round = round := by
  have result := Poll.round_insert (book.poll round) votes
  rwa [taken, round_poll] at result

theorem decision_of_taken {book : PollBook} {round : Round} {votes : List Vote} {poll : Poll}
    {intake : Intake} (taken : (book.poll round).insert votes = (poll, intake))
    : poll.decision = book.decision round := by
  have result := Poll.decision_insert (book.poll round) votes
  rwa [taken] at result

/-- The ways in which an insertion can end. -/
inductive Insertion (book : PollBook) (round : Round) (votes : List Vote)
    (electorate : Option Electorate)
    : PollBook × Receipt → Prop
  /-- The round is out of the window or decided. -/
  | refused (closed : book.Admits round → (book.poll round).Frozen)
    : Insertion book round votes electorate (book, ⟨.none, none⟩)
  /-- The round is ahead, and this is told for the first time. -/
  | announced {poll : Poll} {intake : Intake} (admits : book.Admits round)
    (active : (book.poll round).decision = none)
    (taken : (book.poll round).insert votes = (poll, intake)) (ahead : book.current < round)
    (accepted : 0 < intake.accepted) (first : poll.futureReported = false)
    : Insertion book round votes electorate
        (book.put { poll with futureReported := true },
          ⟨intake, some ⟨.future, round, none, poll.votes, .primary⟩⟩)
  /-- The round is ahead, and the votes are kept. -/
  | retained {poll : Poll} {intake : Intake} (admits : book.Admits round)
    (active : (book.poll round).decision = none)
    (taken : (book.poll round).insert votes = (poll, intake)) (ahead : book.current < round)
    (quiet : 0 < intake.accepted → poll.futureReported = true)
    : Insertion book round votes electorate (book.put poll, ⟨intake, none⟩)
  /-- The votes do not suffice. -/
  | undecided {poll : Poll} {intake : Intake} (admits : book.Admits round)
    (active : (book.poll round).decision = none)
    (taken : (book.poll round).insert votes = (poll, intake)) (reached : ¬ book.current < round)
    (open_still : electorate.bind poll.outcome? = none)
    : Insertion book round votes electorate (book.put poll, ⟨intake, none⟩)
  /-- The votes decide the round. -/
  | decided {poll : Poll} {intake : Intake} {outcome : Outcome} (admits : book.Admits round)
    (active : (book.poll round).decision = none)
    (taken : (book.poll round).insert votes = (poll, intake)) (reached : ¬ book.current < round)
    (decides : electorate.bind poll.outcome? = some outcome)
    : Insertion book round votes electorate
        (book.put (poll.freeze outcome), ⟨intake, some outcome⟩)

theorem insertion (book : PollBook) (round : Round) (votes : List Vote)
    (electorate : Option Electorate)
    : Insertion book round votes electorate (book.insert round votes electorate) := by
  unfold insert
  split
  · next closed =>
      refine .refused fun admits => ?_
      rcases closed with expired | distant | frozen
      · exact absurd expired admits.1
      · exact absurd distant admits.2
      · exact frozen
  · next free =>
      have admits : book.Admits round := ⟨fun h => free (.inl h), fun h => free (.inr (.inl h))⟩
      have active : (book.poll round).decision = none := by
        simpa [Poll.Frozen] using fun frozen => free (.inr (.inr frozen))
      cases taken : (book.poll round).insert votes with
      | mk poll intake =>
          by_cases ahead : book.current < round
          · by_cases tells : 0 < intake.accepted ∧ poll.futureReported = false
            · simpa [ahead, tells, Poll.reportFuture] using
                Insertion.announced admits active taken ahead tells.1 tells.2
            · have quiet (accepted : 0 < intake.accepted) : poll.futureReported = true := by
                simpa [accepted] using tells
              simpa [ahead, tells, Poll.reportFuture] using
                Insertion.retained admits active taken ahead quiet
          · simp only [ahead, if_false]
            cases decides : electorate.bind poll.outcome? with
            | none => exact .undecided admits active taken ahead decides
            | some outcome => exact .decided admits active taken ahead decides

/-- All that an insertion can do to a book is to store the poll of an undecided round. -/
theorem insert_cases (book : PollBook) (round : Round) (votes : List Vote)
    (electorate : Option Electorate)
    : (book.insert round votes electorate).1 = book
      ∨ ∃ poll,
          book.Admits round ∧ book.decision round = none
          ∧ ((book.poll round).insert votes).1.Alike poll ∧ poll.round = round
          ∧ (book.insert round votes electorate).1 = book.put poll := by
  generalize result : book.insert round votes electorate = receipt
  have ends := result ▸ book.insertion round votes electorate
  have alike {poll other : Poll} {intake : Intake}
      (taken : (book.poll round).insert votes = (poll, intake)) (same : poll.Alike other)
      : ((book.poll round).insert votes).1.Alike other ∧ other.round = round := by
    rw [taken]
    exact ⟨same, same.round.trans (round_of_taken taken)⟩
  cases ends with
  | refused _ => exact .inl rfl
  | announced admits active taken _ _ _ =>
      obtain ⟨same, own⟩ := alike taken (Poll.alike_reportFuture _)
      exact .inr ⟨_, admits, active, same, own, rfl⟩
  | retained admits active taken _ _ | undecided admits active taken _ _ =>
      obtain ⟨same, own⟩ := alike taken (.refl _)
      exact .inr ⟨_, admits, active, same, own, rfl⟩
  | decided admits active taken _ _ =>
      obtain ⟨same, own⟩ := alike taken (Poll.alike_freeze _ _)
      exact .inr ⟨_, admits, active, same, own, rfl⟩

@[simp] theorem current_insert (book : PollBook) (round : Round) (votes : List Vote)
    (electorate : Option Electorate)
    : (book.insert round votes electorate).1.current = book.current := by
  rcases book.insert_cases round votes electorate with same | ⟨poll, -, -, -, -, same⟩
  · rw [same]
  · rw [same]
    rfl

theorem poll_insert_of_ne {book : PollBook} {round other : Round} {votes : List Vote}
    {electorate : Option Electorate} (differ : round ≠ other)
    : (book.insert round votes electorate).1.poll other = book.poll other := by
  rcases book.insert_cases round votes electorate with same | ⟨poll, -, -, -, own, same⟩
  · rw [same]
  · rw [same]
    exact poll_put_of_ne (own ▸ differ)

-----------------------------------------------------------------------------------------
-- What an evaluation does
-----------------------------------------------------------------------------------------

/-- The ways in which an evaluation can end. -/
inductive Evaluation (book : PollBook) (round : Round) (electorate : Electorate)
    : PollBook × Option Ruling → Prop
  | untracked (absent : book.poll? round = none) : Evaluation book round electorate (book, none)
  | stored {outcome : Outcome} (known : (book.poll round).decision = some outcome)
    : Evaluation book round electorate (book, some ⟨outcome, false⟩)
  | undecided (active : (book.poll round).decision = none)
    (open_still : (book.poll round).outcome? electorate = none)
    : Evaluation book round electorate (book, none)
  | decided {outcome : Outcome} (active : (book.poll round).decision = none)
    (decides : (book.poll round).outcome? electorate = some outcome)
    : Evaluation book round electorate
        (book.put ((book.poll round).freeze outcome), some ⟨outcome, true⟩)

theorem evaluation (book : PollBook) (round : Round) (electorate : Electorate)
    : Evaluation book round electorate (book.evaluate round electorate) := by
  unfold evaluate
  cases found : book.poll? round with
  | none => exact .untracked found
  | some poll =>
      obtain rfl : book.poll round = poll := by rw [PollBook.poll, found, Option.getD_some]
      simp only
      cases known : (book.poll round).decision with
      | some outcome => exact .stored known
      | none =>
          cases decides : (book.poll round).outcome? electorate with
          | none => exact .undecided known decides
          | some outcome => exact .decided known decides

/-- All that an evaluation can do to a book is to decide a round as its votes imply. -/
theorem evaluate_cases (book : PollBook) (round : Round) (electorate : Electorate)
    : (book.evaluate round electorate).1 = book
      ∨ ∃ outcome,
          book.decision round = none ∧ (book.poll round).outcome? electorate = some outcome
          ∧ (book.evaluate round electorate).1 = book.put ((book.poll round).freeze outcome) := by
  generalize result : book.evaluate round electorate = ruling
  have ends := result ▸ book.evaluation round electorate
  cases ends with
  | untracked _ | stored _ | undecided _ _ => exact .inl rfl
  | decided active decides => exact .inr ⟨_, active, decides, rfl⟩

@[simp] theorem current_evaluate (book : PollBook) (round : Round) (electorate : Electorate)
    : (book.evaluate round electorate).1.current = book.current := by
  rcases book.evaluate_cases round electorate with same | ⟨outcome, -, -, same⟩
  · rw [same]
  · rw [same]
    rfl

theorem poll_evaluate_of_ne {book : PollBook} {round other : Round} {electorate : Electorate}
    (differ : round ≠ other)
    : (book.evaluate round electorate).1.poll other = book.poll other := by
  rcases book.evaluate_cases round electorate with same | ⟨outcome, -, -, same⟩
  · rw [same]
  · rw [same]
    exact poll_put_of_ne (by simpa [Poll.freeze] using differ)

end PollBook

end Quorum
