import Quorum.Proofs.Gate.Jurisdiction
import Quorum.Proofs.Gate.Recording

/-! What becomes of a new decision. The call that decides a round records the outcome, unless it is
a bundle that comes in late, for a round that the gate has moved past. The phase of the gate follows
the decision of the current round alone.
-/

namespace Quorum

namespace PollBook

/-- After an evaluation the book holds the decision that it gave. -/
theorem decision_of_evaluate {book later : PollBook} {round : Round} {electorate : Electorate}
    {ruling : Option Ruling} (evaluated : book.evaluate round electorate = (later, ruling))
    : later.decision round = ruling.map Ruling.outcome := by
  have ends := evaluated ▸ book.evaluation round electorate
  cases ends with
  | untracked absent => simp [decision, poll, absent, Poll.empty]
  | stored known => exact known
  | undecided active _ => exact active
  | decided active _ => exact decision_put_freeze (round_poll book round) active _

/-- A new decision ends the round that was evaluated. -/
theorem concludes_of_evaluate {book later : PollBook} {round : Round} {electorate : Electorate}
    {outcome : Outcome}
    (evaluated : book.evaluate round electorate = (later, some ⟨outcome, true⟩))
    : outcome.round = round ∧ outcome.Terminal := by
  have ends := evaluated ▸ book.evaluation round electorate
  cases ends with
  | decided _ decides =>
      have concludes := Poll.concludes_of_outcome? decides
      exact ⟨concludes.round.trans (round_poll book round), concludes.terminal⟩

theorem Records.grows {book later : PollBook} {outcomes : List Outcome}
    (records : Records book later outcomes)
    : Grows book later := by
  cases records with
  | nothing grows => exact grows
  | single before grows _ => exact before.trans grows

/-- Decisions are kept in the window only. -/
theorem Trimmed.not_expired_of_decision {book : PollBook} (trimmed : book.Trimmed) {round : Round}
    {outcome : Outcome} (known : book.decision round = some outcome)
    : ¬ book.Expired round := by
  rcases book.poll_mem_or_empty round with tracked | untracked
  · exact round_poll book round ▸ trimmed _ tracked
  · rw [decision, untracked] at known
    cases known

end PollBook

namespace Gate

open Conductor (surfaced)

-----------------------------------------------------------------------------------------
-- Tallies that decide a round
-----------------------------------------------------------------------------------------

section

variable {round decided : Round} {votes : List Vote} {electorate : Electorate} {gate last : Gate}
  {effects : List Effect} {outcome : Outcome}

/-- What decides a round ends that round, and a commit names its winner. -/
theorem Decides.concludes (decides : gate.Decides electorate round outcome)
    : outcome.round = round ∧ outcome.Terminal
      ∧ (outcome.kind = .commit → ∃ candidate, outcome.winner = some candidate) := by
  have concludes := Poll.concludes_of_outcome? decides
  have own := concludes.round.trans (PollBook.round_poll gate.book round)
  exact ⟨own, concludes.terminal, concludes.winner⟩

/-- A tally surfaces the decision of the current round, but not that of an earlier one. -/
theorem Tally.surfaced_of_decided (tally : Tally round votes electorate gate (last, effects))
    (before : gate.book.decision decided = none)
    (after : last.book.decision decided = some outcome)
    : surfaced effects = if decided = gate.book.current then [outcome] else [] := by
  obtain ⟨-, -, found, decides⟩ := decides_of_tally tally before after
  obtain ⟨own, terminal, -⟩ := decides.concludes
  cases tally with
  | silent untimely =>
      rw [if_neg (own ▸ (untimely outcome found).2)]
      exact (silent_intakeCounts _).surfaced
  | told found' timely =>
      obtain rfl := Option.some.inj (found'.symm.trans found)
      rw [if_pos (own.symm.trans (timely terminal)), surfaced_told]

theorem phase_enter {phase : Phase} (moving : gate.phase ≠ .stopped)
    : (gate.enter phase).phase = phase := by
  rw [enter, if_neg moving]

theorem phase_record (outcome : Outcome) (moving : gate.phase ≠ .stopped)
    : (gate.record outcome).1.phase
      = if outcome.Terminal then .frozen outcome.round else gate.phase := by
  unfold record
  simp only
  split
  · exact phase_enter moving
  · rfl

theorem Tally.phase_of_decided (tally : Tally round votes electorate gate (last, effects))
    (moving : gate.phase ≠ .stopped) (before : gate.book.decision gate.book.current = none)
    (after : last.book.decision gate.book.current = some outcome)
    : last.phase = .frozen gate.book.current := by
  obtain ⟨-, -, found, decides⟩ := decides_of_tally tally before after
  obtain ⟨own, terminal, -⟩ := decides.concludes
  cases tally with
  | silent untimely => exact absurd own (untimely outcome found).2
  | told found' timely =>
      obtain rfl := Option.some.inj (found'.symm.trans found)
      rw [phase_record _ (by exact moving), if_pos terminal, own]

/-- Unless the current round is decided only now, a tally does not change the phase. -/
theorem Tally.phase_of_same (tally : Tally round votes electorate gate (last, effects))
    (moving : gate.phase ≠ .stopped)
    (same : last.book.decision gate.book.current = gate.book.decision gate.book.current)
    : last.phase = gate.phase := by
  rw [tally.rephased.book] at same
  cases tally with
  | silent _ => rfl
  | @told outcome found timely =>
      rw [phase_record _ (by exact moving)]
      by_cases terminal : outcome.Terminal
      · have brings := PollBook.brings_insert found
        have stored := brings.stored terminal
        rw [timely terminal] at stored
        have closed : gate.book.Closed outcome.round := by
          refine .inr (Option.isSome_iff_exists.mpr ⟨outcome, ?_⟩)
          exact timely terminal ▸ same.symm.trans stored
        exact absurd closed brings.active
      · rw [if_neg terminal]

end

-----------------------------------------------------------------------------------------
-- Calls that decide a round
-----------------------------------------------------------------------------------------

/-- A switch that is not refused gives the decision of its round as it stands afterwards. -/
theorem Switching.decision_eq {round : Round} {peers : List Peer} {gate last : Gate}
    {found : Option Outcome} {effects : List Effect}
    (ends : Switching round peers gate (.ok found, last, effects))
    : last.book.decision round = found := by
  cases ends with
  | opened _ _ ruling =>
      rw [(rephased_enter _ _).book]
      exact PollBook.decision_of_evaluate ruling
  | replayed _ _ ruling =>
      rw [(rephased_enter _ _).book]
      exact PollBook.decision_of_evaluate ruling
  | @decided roster book outcome _ _ _ _ ruling recorded =>
      have phase := rephased_record outcome (gate.settled round roster book)
      rw [recorded] at phase
      rw [phase.book]
      exact PollBook.decision_of_evaluate ruling

/-- A switch returns an outcome, and puts none on the stream. -/
theorem Switching.surfaced_eq_nil {round : Round} {peers : List Peer} {gate last : Gate}
    {result : Except Fault (Option Outcome)} {effects : List Effect}
    (ends : Switching round peers gate (result, last, effects))
    : surfaced effects = [] := by
  cases ends with
  | refused _ | opened _ _ _ | replayed _ _ _ => rfl
  | @decided roster book outcome _ _ _ _ _ recorded =>
      obtain rfl := congrArg Prod.snd recorded
      exact surfaced_record outcome (gate.settled round roster book)

/-- The call takes in votes for a round that the gate has moved past. -/
def Deed.Late (deed : Deed) (round : Round) : Prop :=
  match deed.call with
  | .receive _ => round < deed.before.book.current
  | _ => False

instance (deed : Deed) (round : Round) : Decidable (deed.Late round) := by
  unfold Deed.Late
  split <;> infer_instance

theorem Deed.Freezes.concludes {settings : Settings} {deed : Deed} {round : Round}
    {outcome : Outcome} (freezes : deed.Freezes round outcome) (done : deed.Done settings)
    : outcome.round = round ∧ outcome.Terminal
      ∧ (outcome.kind = .commit → ∃ candidate, outcome.winner = some candidate) := by
  obtain ⟨_, decides, -⟩ := freezes.decides done
  exact decides.concludes

/-- A vote that decides a round surfaces the outcome. -/
theorem Voting.surfaced_of_decided {settings : Settings} {candidate : Candidate}
    {electorate : Electorate} {before after : Gate} {result : Except Fault Unit}
    {effects : List Effect} {round : Round} {outcome : Outcome}
    (ends : Voting settings candidate electorate before (result, after, effects))
    (undecided : before.book.decision round = none)
    (known : after.book.decision round = some outcome)
    : surfaced effects = [outcome] := by
  cases ends with
  | refused _ => cases undecided.symm.trans known
  | @cast vote _ effects _ reached _ _ _ tally =>
      have book := book_begun candidate.round vote electorate before
      have moved := PollBook.decision_advance_of_none undecided candidate.round
      rw [← book] at moved
      obtain ⟨own, -, -⟩ := decides_of_tally tally moved known
      -- The vote is for the round that is current by now.
      have current : round = (before.begun candidate.round vote electorate).book.current := by
        rw [book, PollBook.current_advance, own]
        split
        · next behind => exact Round.le_antisymm behind (Round.not_lt.mp reached)
        · rfl
      have told := tally.surfaced_of_decided moved known
      rw [if_pos current] at told
      have posted := (silent_posts settings candidate.round vote electorate).surfaced
      simp only [surfaced] at told posted ⊢
      rw [List.filterMap_append, told, posted, List.append_nil]

/-- A switch that decides a round returns the outcome. -/
theorem Switching.result_of_decided {round decided : Round} {peers : List Peer}
    {before after : Gate} {result : Except Fault (Option Outcome)} {effects : List Effect}
    {outcome : Outcome} (ends : Switching round peers before (result, after, effects))
    (undecided : before.book.decision decided = none)
    (known : after.book.decision decided = some outcome)
    : decided = round ∧ result = .ok (some outcome) := by
  obtain ⟨_, found, -, rfl, rfl, -⟩ := ends.decides undecided known
  exact ⟨rfl, congrArg Except.ok (ends.decision_eq.symm.trans known)⟩

/-- A bundle that decides the current round surfaces the outcome, and one that decides an earlier
round surfaces nothing.
-/
theorem Receiving.surfaced_of_decided {settings : Settings} {votes : List Vote}
    {before after : Gate} {effects : List Effect} {round : Round} {outcome : Outcome}
    (ends : Receiving settings votes before (after, effects))
    (undecided : before.book.decision round = none)
    (known : after.book.decision round = some outcome)
    : surfaced effects = if round < before.book.current then [] else [outcome] := by
  cases ends with
  | ignored | dropped | answered _ _ _ _ _ => cases undecided.symm.trans known
  | @collected heard _ _ _ _ _ _ _ _ tally =>
      have book := (rephased_heard heard before).book
      rw [← book] at undecided ⊢
      obtain ⟨-, reached, -⟩ := decides_of_tally tally undecided known
      rw [tally.surfaced_of_decided undecided known]
      by_cases late : round < (before.heard heard).book.current
      · have other : round ≠ (before.heard heard).book.current := by
          rintro same
          exact Round.lt_irrefl round (same ▸ late)
        rw [if_pos late, if_neg other]
      · rw [if_neg late, if_pos (Round.le_antisymm reached (Round.not_lt.mp late))]

/-- A call that decides a round records the outcome, unless it comes late. -/
theorem Deed.Freezes.recorded {settings : Settings} {deed : Deed} {round : Round}
    {outcome : Outcome} (freezes : deed.Freezes round outcome) (done : deed.Done settings)
    : deed.recorded = if deed.Late round then [] else [outcome] := by
  obtain ⟨undecided, known⟩ := freezes
  cases done with
  | vote ends =>
      have told := ends.surfaced_of_decided undecided known
      rw [Deed.recorded, told]
      rfl
  | switch ends =>
      obtain ⟨rfl, rfl⟩ := ends.result_of_decided undecided known
      rw [Deed.recorded, ends.surfaced_eq_nil]
      exact if_pos undecided
  | receive ends =>
      have told := ends.surfaced_of_decided undecided known
      rw [Deed.recorded, told]
      exact List.append_nil _
  | rebroadcast ends =>
      cases ends with
      | spent | sent _ _ _ => cases undecided.symm.trans known
  | stop before => cases undecided.symm.trans (before.book_halted ▸ known)

-----------------------------------------------------------------------------------------
-- Decisions of runs
-----------------------------------------------------------------------------------------

/-- No call changes a decision or forgets it and decides the round again. -/
theorem Deed.decided_before_or_freezes {settings : Settings} {deed : Deed}
    (done : deed.Done settings) (trimmed : deed.before.book.Trimmed) {round : Round}
    {outcome : Outcome} (known : deed.after.book.decision round = some outcome)
    : deed.before.book.decision round = some outcome ∨ deed.Freezes round outcome := by
  have accountable := done.accountable trimmed
  have kept := accountable.trimmed.not_expired_of_decision known
  cases before : deed.before.book.decision round with
  | none => exact .inr ⟨before, known⟩
  | some earlier => exact .inl ((accountable.records.grows.decision kept before).symm.trans known)

/-- A stored decision was reached by one of the calls; by induction on them. -/
theorem Run.exists_freezes {settings : Settings} {window : UInt64} {deeds : List Deed} {gate : Gate}
    (run : Run settings window deeds gate) {round : Round} {outcome : Outcome}
    (known : gate.book.decision round = some outcome)
    : ∃ deed ∈ deeds, deed.Freezes round outcome := by
  induction run with
  | start => simp [initial, PollBook.empty, PollBook.decision, PollBook.poll, PollBook.poll?,
      Poll.empty] at known
  | @next deeds gate run call _ ih =>
      have done := call.done settings gate
      rcases Deed.decided_before_or_freezes done run.recorded.trimmed known with earlier | freezes
      · obtain ⟨deed, member, freezes⟩ := ih earlier
        exact ⟨deed, List.mem_append_left _ member, freezes⟩
      · exact ⟨_, List.mem_append_right _ (List.mem_singleton_self _), freezes⟩

/-- A stored decision ends its round. -/
theorem Run.decision_concludes {settings : Settings} {window : UInt64} {deeds : List Deed}
    {gate : Gate} (run : Run settings window deeds gate) {round : Round} {outcome : Outcome}
    (known : gate.book.decision round = some outcome)
    : outcome.round = round ∧ outcome.Terminal
      ∧ (outcome.kind = .commit → ∃ candidate, outcome.winner = some candidate) := by
  obtain ⟨deed, member, freezes⟩ := run.exists_freezes known
  exact freezes.concludes (run.done deed member)

end Gate

end Quorum
