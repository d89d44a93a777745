import Quorum.Proofs.PollBook.Growth

/-! Accounts of the outcomes that a poll book brings forth. An outcome comes from a round that is
not closed, and is kept by its poll, so that a round has at most one outcome that ends it, and one
before that which tells of votes ahead.
-/

namespace Quorum

/-- The later outcome is of another round, or ends the round that the earlier one told of. -/
def Outcome.Precedes (earlier later : Outcome) : Prop :=
  earlier.round = later.round → earlier.kind = .future ∧ later.Terminal

instance (earlier later : Outcome) : Decidable (earlier.Precedes later) :=
  inferInstanceAs (Decidable (_ → _))

namespace PollBook

-----------------------------------------------------------------------------------------
-- New outcomes
-----------------------------------------------------------------------------------------

/-- On the way from a book to a later one an outcome comes up, and its poll takes note of it. -/
structure Brings (book later : PollBook) (outcome : Outcome) : Prop where
  active : ¬ book.Closed outcome.round
  unreported : outcome.kind = .future → (book.poll outcome.round).futureReported = false
  stored : outcome.Terminal → later.decision outcome.round = some outcome
  reported : outcome.kind = .future → (later.poll outcome.round).futureReported = true
  winner : outcome.kind = .commit → ∃ candidate, outcome.winner = some candidate

/-- A decision of a round that is not closed is new. -/
theorem brings_freeze {book : PollBook} {poll : Poll} {electorate : Electorate} {outcome : Outcome}
    (kept : ¬ book.Expired poll.round) (undecided : book.decision poll.round = none)
    (own : poll.decision = none) (decides : poll.outcome? electorate = some outcome)
    : Brings book (book.put (poll.freeze outcome)) outcome := by
  have concludes := Poll.concludes_of_outcome? decides
  have round := concludes.round
  refine ⟨?_, ?_, fun _ => ?_, ?_, concludes.winner⟩
  · rw [round]
    rintro (expired | frozen)
    · exact kept expired
    · exact absurd undecided (Option.isSome_iff_ne_none.mp frozen)
  · exact fun future => absurd future concludes.terminal
  · exact decision_put_freeze round.symm own outcome
  · exact fun future => absurd future concludes.terminal

theorem brings_insert {book : PollBook} {round : Round} {votes : List Vote}
    {electorate : Option Electorate} {outcome : Outcome}
    (found : (book.insert round votes electorate).2.outcome = some outcome)
    : Brings book (book.insert round votes electorate).1 outcome := by
  generalize result : book.insert round votes electorate = receipt at found
  have ends := result ▸ book.insertion round votes electorate
  cases ends with
  | refused _ => cases found
  | retained _ _ _ _ _ => cases found
  | undecided _ _ _ _ _ => cases found
  | announced admits active taken ahead _ first =>
      cases found
      have mark := Poll.futureReported_insert (book.poll round) votes
      rw [taken] at mark
      have own := round_of_taken taken
      refine ⟨?_, fun _ => mark.symm.trans first, ?_, fun _ => ?_, by simp⟩
      · rintro (expired | frozen)
        · exact admits.1 expired
        · exact absurd active (Option.isSome_iff_ne_none.mp frozen)
      · simp [Outcome.Terminal]
      · rw [poll_put_own (by exact own)]
  | decided admits active taken _ decides =>
      cases found
      obtain ⟨electorate, -, decides⟩ := Option.bind_eq_some_iff.mp decides
      have own := round_of_taken taken
      have undecided := (decision_of_taken taken).trans active
      exact brings_freeze (own.symm ▸ admits.1) (own.symm ▸ active) undecided decides

theorem brings_evaluate {book later : PollBook} {round : Round} {electorate : Electorate}
    {outcome : Outcome} (trimmed : book.Trimmed)
    (ruling : book.evaluate round electorate = (later, some ⟨outcome, true⟩))
    : Brings book later outcome := by
  have ends := ruling ▸ book.evaluation round electorate
  cases ends with
  | decided active decides =>
      have kept := trimmed.not_expired_of_outcome? decides
      have own := round_poll book round
      exact brings_freeze (own.symm ▸ kept) (own.symm ▸ active) active decides

/-- A ruling is fresh just if there was no decision before. -/
theorem fresh_iff {book later : PollBook} {round : Round} {electorate : Electorate}
    {ruling : Ruling} (evaluated : book.evaluate round electorate = (later, some ruling))
    : ruling.fresh = true ↔ book.decision round = none := by
  have ends := evaluated ▸ book.evaluation round electorate
  cases ends with
  | stored known =>
      have decided : book.decision round = some _ := known
      simp [decided]
  | decided active _ =>
      have undecided : book.decision round = none := active
      simp [undecided]

-----------------------------------------------------------------------------------------
-- Recorded outcomes
-----------------------------------------------------------------------------------------

/-- On the way from a book to a later one, all outcomes of a list come up and no others. -/
inductive Records (book : PollBook) : PollBook → List Outcome → Prop
  | nothing {later : PollBook} (grows : Grows book later) : Records book later []
  | single {middle later : PollBook} {outcome : Outcome} (before : Grows book middle)
    (grows : Grows middle later) (brings : Brings middle later outcome)
    : Records book later [outcome]

theorem Records.after_growth {book middle later : PollBook} {outcomes : List Outcome}
    (before : Grows book middle) (records : Records middle later outcomes)
    : Records book later outcomes := by
  cases records with
  | nothing grows => exact .nothing (before.trans grows)
  | single first grows brings => exact .single (before.trans first) grows brings

theorem Records.decision {book later : PollBook} {outcomes : List Outcome}
    (records : Records book later outcomes) {outcome : Outcome} (recorded : outcome ∈ outcomes)
    (terminal : outcome.Terminal)
    : later.decision outcome.round = some outcome := by
  cases records with
  | nothing _ => cases recorded
  | single _ _ brings =>
      obtain rfl := List.mem_singleton.mp recorded
      exact brings.stored terminal

/-- The outcomes came up one after the other, and the book still knows of them as far as it keeps
their rounds.
-/
structure Accounts (book : PollBook) (recorded : List Outcome) : Prop where
  once : recorded.Pairwise Outcome.Precedes
  closed : ∀ outcome ∈ recorded, outcome.Terminal → book.Closed outcome.round
  reported
    : ∀ outcome ∈ recorded, outcome.kind = .future → ¬ book.Expired outcome.round →
        (book.poll outcome.round).futureReported = true

namespace Accounts

theorem empty (book : PollBook) : book.Accounts [] := by
  constructor <;> simp

theorem grow {book later : PollBook} {recorded : List Outcome} (accounts : book.Accounts recorded)
    (grows : Grows book later)
    : later.Accounts recorded where
  once := accounts.once
  closed outcome member terminal := grows.closed (accounts.closed outcome member terminal)
  reported outcome member future kept :=
    grows.reported kept (accounts.reported outcome member future (mt grows.expired kept))

/-- A recorded outcome of the round of a new one has told of votes ahead, and the new one ends the
round.
-/
theorem precedes {book later : PollBook} {recorded : List Outcome}
    (accounts : book.Accounts recorded) {earlier outcome : Outcome} (member : earlier ∈ recorded)
    (brings : Brings book later outcome)
    : earlier.Precedes outcome := by
  intro same
  have future : earlier.kind = .future := by
    by_contra terminal
    exact brings.active (same ▸ accounts.closed earlier member terminal)
  refine ⟨future, fun again => ?_⟩
  have kept : ¬ book.Expired earlier.round := fun expired => brings.active (.inl (same ▸ expired))
  have known := accounts.reported earlier member future kept
  rw [same, brings.unreported again] at known
  cases known

theorem add {book later : PollBook} {recorded : List Outcome} (accounts : book.Accounts recorded)
    (grows : Grows book later) {outcome : Outcome} (brings : Brings book later outcome)
    : later.Accounts (recorded ++ [outcome]) := by
  have earlier := accounts.grow grows
  constructor
  · refine List.pairwise_append.mpr ⟨accounts.once, List.pairwise_singleton _ _, ?_⟩
    intro known member new last
    obtain rfl := List.mem_singleton.mp last
    exact accounts.precedes member brings
  · refine List.forall_mem_append.mpr ⟨earlier.closed, ?_⟩
    refine List.forall_mem_singleton.mpr fun terminal => .inr ?_
    exact Option.isSome_iff_exists.mpr ⟨outcome, brings.stored terminal⟩
  · refine List.forall_mem_append.mpr ⟨earlier.reported, ?_⟩
    exact List.forall_mem_singleton.mpr fun future _ => brings.reported future

theorem records {book later : PollBook} {recorded outcomes : List Outcome}
    (accounts : book.Accounts recorded) (records : Records book later outcomes)
    : later.Accounts (recorded ++ outcomes) := by
  cases records with
  | nothing grows => exact (List.append_nil recorded).symm ▸ accounts.grow grows
  | single before grows brings => exact (accounts.grow before).add grows brings

end Accounts

end PollBook

end Quorum
