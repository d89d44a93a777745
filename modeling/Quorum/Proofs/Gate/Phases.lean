import Quorum.Proofs.Conductor.Calls
import Quorum.Proofs.Gate.Decisions

/-! Phases of a gate. As long as switches do not lead back behind the current round, the phase tells
whether the gate knows an electorate, and whether the current round is decided; and it tells of no
other round.
-/

namespace Quorum.Gate

-----------------------------------------------------------------------------------------
-- What a phase stands for
-----------------------------------------------------------------------------------------

/-- The phase stands for the current round, by cases. -/
inductive Standing (gate : Gate) : Prop
  | stopped (phase : gate.phase = .stopped) (halted : gate.stopped = true)
    (untracked : gate.electorate = none → gate.book.polls = [])
  | idle (phase : gate.phase = .idle) (live : gate.stopped = false)
    (unknown : gate.electorate = none) (untracked : gate.book.polls = [])
  | active (phase : gate.phase = .voting gate.book.current ∨ gate.phase = .deciding gate.book.current)
    (live : gate.stopped = false) (known : gate.electorate ≠ none)
    (undecided : gate.book.decision gate.book.current = none)
  | settled {outcome : Outcome} (phase : gate.phase = .frozen gate.book.current)
    (live : gate.stopped = false) (known : gate.electorate ≠ none)
    (decided : gate.book.decision gate.book.current = some outcome)

theorem standing_initial (window : UInt64) : (initial window).Standing :=
  .idle rfl rfl rfl rfl

/-- To take votes in moves the polls no further. -/
theorem Tally.current_eq {round : Round} {votes : List Vote} {electorate : Electorate}
    {gate last : Gate} {effects : List Effect}
    (tally : Tally round votes electorate gate (last, effects))
    : last.book.current = gate.book.current :=
  (congrArg PollBook.current tally.rephased.book).trans (PollBook.current_insert ..)

namespace Standing

variable {gate last : Gate}

theorem moving (standing : gate.Standing) (live : gate.stopped = false)
    : gate.phase ≠ .stopped := by
  cases standing with
  | stopped _ halted => cases live.symm.trans halted
  | idle phase _ _ _ => simp [phase]
  | active phase _ _ _ => rcases phase with phase | phase <;> simp [phase]
  | settled phase _ _ _ => simp [phase]

/-- Votes that are taken in under an electorate that is known turn the phase with the decision of the
current round.
-/
theorem tally (standing : gate.Standing) (live : gate.stopped = false)
    (known : gate.electorate ≠ none) {round : Round} {votes : List Vote} {electorate : Electorate}
    {effects : List Effect} (tally : Tally round votes electorate gate (last, effects))
    : last.Standing := by
  have moving := standing.moving live
  have same := tally.rephased
  have live_last : last.stopped = false := same.stopped.trans live
  have known_last : last.electorate ≠ none := same.electorate ▸ known
  have current := tally.current_eq
  cases standing with
  | stopped _ halted _ => cases live.symm.trans halted
  | idle _ _ unknown _ => exact absurd unknown known
  | active phase _ _ undecided =>
      cases after : last.book.decision gate.book.current with
      | none =>
          have kept := tally.phase_of_same moving (after.trans undecided.symm)
          refine .active ?_ live_last known_last (current ▸ after)
          rw [kept, current]
          exact phase
      | some outcome =>
          have frozen := tally.phase_of_decided moving undecided after
          refine .settled ?_ live_last known_last (current ▸ after)
          rw [frozen, current]
  | settled phase _ _ decided =>
      have grows : gate.book.Grows last.book := tally.records.1.grows
      have inside : ¬ last.book.Expired gate.book.current :=
        PollBook.not_expired_of_le (current ▸ Round.le_refl _)
      have after := grows.decision inside decided
      have kept := tally.phase_of_same moving (after.trans decided.symm)
      refine .settled ?_ live_last known_last (current ▸ after)
      rw [kept, current]
      exact phase

end Standing

-----------------------------------------------------------------------------------------
-- Calls
-----------------------------------------------------------------------------------------

/-- The call does not switch to a round behind the current one. -/
def Deed.Forward (deed : Deed) : Prop :=
  match deed.call with
  | .switch round _ => deed.before.book.current ≤ round
  | _ => True

instance : (deed : Deed) → Decidable deed.Forward
  | ⟨.switch _ _, _, _, _, _⟩ => inferInstanceAs (Decidable (_ ≤ _))
  | ⟨.vote _ _, _, _, _, _⟩ | ⟨.receive _, _, _, _, _⟩ | ⟨.rebroadcast _, _, _, _, _⟩
  | ⟨.stop, _, _, _, _⟩ => isTrue trivial

section

variable {round : Round} {gate : Gate} (electorate : Electorate)

theorem phase_moveTo : (gate.moveTo round electorate).phase = gate.phase := by
  unfold moveTo adopt
  split <;> rfl

/-- A gate that moves on to a round, and not back, has it for its current round. -/
theorem current_moveTo (forward : gate.book.current ≤ round)
    : (gate.moveTo round electorate).book.current = round := by
  rw [book_moveTo, PollBook.current_advance]
  split
  · next behind => exact Round.le_antisymm forward behind
  · rfl

theorem known_moveTo (synced : gate.round = gate.book.current) (forward : gate.book.current ≤ round)
    : (gate.moveTo round electorate).electorate ≠ none := by
  rw [electorate_moveTo, if_pos (synced ▸ forward)]
  exact Option.some_ne_none _

end

/-- A vote moves the gate to its round, or leaves it where it is. -/
theorem Voting.current_eq {settings : Settings} {candidate : Candidate} {electorate : Electorate}
    {before after : Gate} {result : Except Fault Unit} {effects : List Effect}
    (ends : Voting settings candidate electorate before (result, after, effects))
    : after.book.current = before.book.current ∨ after.book.current = candidate.round := by
  cases ends with
  | refused _ => exact .inl rfl
  | @cast vote _ _ _ _ _ _ _ tally =>
      have same := congrArg PollBook.current (book_begun candidate.round vote electorate before)
      rw [tally.current_eq, same, PollBook.current_advance]
      split
      · exact .inl rfl
      · exact .inr rfl

/-- A switch that does not lead back makes its round the current one. -/
theorem Switching.current_eq {round : Round} {peers : List Peer} {before after : Gate}
    {found : Option Outcome} {effects : List Effect}
    (ends : Switching round peers before (.ok found, after, effects))
    (forward : before.book.current ≤ round)
    : after.book.current = round := by
  rcases ends.settles with ⟨-, fault, failed⟩ | ⟨roster, _, book, _, -, -, evaluated, same⟩
  · cases failed
  · rw [same.book, current_settled evaluated]
    exact current_moveTo ⟨roster, none⟩ forward

theorem Receiving.current_eq {settings : Settings} {votes : List Vote} {before after : Gate}
    {effects : List Effect} (ends : Receiving settings votes before (after, effects))
    : after.book.current = before.book.current := by
  cases ends with
  | ignored | dropped | answered _ _ _ _ _ => rfl
  | @collected round _ _ _ _ _ _ _ _ tally =>
      exact tally.current_eq.trans (congrArg PollBook.current (rephased_heard round before).book)

theorem Standing.vote {settings : Settings} {candidate : Candidate} {electorate : Electorate}
    {before after : Gate} {result : Except Fault Unit} {effects : List Effect}
    (standing : before.Standing) (synced : before.round = before.book.current)
    (ends : Voting settings candidate electorate before (result, after, effects))
    : after.Standing := by
  cases ends with
  | refused _ => exact standing
  | @cast vote _ _ live reached active _ _ tally =>
      have forward := Round.not_lt.mp reached
      have same := rephased_enter (.voting candidate.round)
        ({ before with ownVotes := before.ownVotes ++ [(candidate.round, vote)] }.moveTo
          candidate.round electorate)
      have live_begun := (stopped_begun candidate.round vote electorate before).trans live
      have known : (before.begun candidate.round vote electorate).electorate ≠ none := by
        rw [begun, same.electorate]
        exact known_moveTo electorate synced forward
      have current
          : (before.begun candidate.round vote electorate).book.current = candidate.round := by
        rw [begun, same.book]
        exact current_moveTo electorate forward
      have phase
          : (before.begun candidate.round vote electorate).phase = .voting candidate.round := by
        refine phase_enter ?_
        rw [phase_moveTo]
        exact standing.moving live
      have undecided
          : (before.begun candidate.round vote electorate).book.decision candidate.round = none := by
        rw [book_begun, PollBook.decision, PollBook.poll_advance_own]
        simpa [Poll.Frozen] using fun frozen => active (.inr frozen)
      have voting : (before.begun candidate.round vote electorate).Standing :=
        .active (.inl (current.symm ▸ phase)) live_begun known (current.symm ▸ undecided)
      exact voting.tally live_begun known tally

/-- The phase after a switch tells whether its round is decided. -/
theorem Switching.phase_eq {round : Round} {peers : List Peer} {gate last : Gate}
    {found : Option Outcome} {effects : List Effect}
    (ends : Switching round peers gate (.ok found, last, effects)) (moving : gate.phase ≠ .stopped)
    : last.phase = if found = none then .voting round else .frozen round := by
  have moving_settled (roster : Roster) (book : PollBook)
      : (gate.settled round roster book).phase ≠ .stopped := by
    rw [settled]
    simpa only [phase_moveTo] using moving
  cases ends with
  | opened _ _ _ => exact phase_enter (moving_settled _ _)
  | replayed _ _ _ => exact phase_enter (moving_settled _ _)
  | @decided roster book outcome _ _ _ _ ruling recorded =>
      obtain ⟨own, terminal⟩ := PollBook.concludes_of_evaluate ruling
      have phase := phase_record outcome (moving_settled roster book)
      rw [recorded, if_pos terminal, own] at phase
      exact phase

/-- A switch that does not lead back makes its round the current one. -/
theorem Standing.switch {round : Round} {peers : List Peer} {before after : Gate}
    {result : Except Fault (Option Outcome)} {effects : List Effect}
    (standing : before.Standing) (synced : before.round = before.book.current)
    (forward : before.book.current ≤ round)
    (ends : Switching round peers before (result, after, effects))
    : after.Standing := by
  rcases ends.settles with ⟨rfl, -⟩ | ⟨roster, found, _, _, -, rfl, -, same⟩
  · exact standing
  · have live : before.stopped = false := by cases ends <;> assumption
    have live_after : after.stopped = false :=
      same.stopped.trans ((stopped_moveTo round ⟨roster, none⟩ before).trans live)
    have known : after.electorate ≠ none := by
      rw [same.electorate]
      exact known_moveTo ⟨roster, none⟩ synced forward
    have current := ends.current_eq forward
    have phase := ends.phase_eq (standing.moving live)
    have stored := ends.decision_eq
    rw [← current] at phase stored
    cases found with
    | none => exact .active (.inl phase) live_after known stored
    | some outcome => exact .settled phase live_after known stored

/-- Votes for the current round turn voting into deciding. -/
theorem Standing.heard {gate : Gate} (standing : gate.Standing)
    (synced : gate.round = gate.book.current) (known : gate.electorate ≠ none) (round : Round)
    : (gate.heard round).Standing := by
  unfold Gate.heard startDeciding
  split
  · next latest =>
      have current := latest.trans synced
      split
      · next waiting =>
          cases standing with
          | stopped phase _ _ => simp [phase] at waiting
          | idle _ _ unknown _ => exact absurd unknown known
          | active _ live _ undecided =>
              exact .active (.inr (congrArg Phase.deciding current)) live known undecided
          | settled phase _ _ _ => simp [phase] at waiting
      · exact standing
  · exact standing

theorem Standing.receive {settings : Settings} {votes : List Vote} {before after : Gate}
    {effects : List Effect} (standing : before.Standing)
    (synced : before.round = before.book.current)
    (ends : Receiving settings votes before (after, effects))
    : after.Standing := by
  cases ends with
  | ignored | dropped | answered _ _ _ _ _ => exact standing
  | @collected round electorate _ _ live _ _ active consulted tally =>
      have same := rephased_heard round before
      have known : before.electorate ≠ none := consulted ▸ Option.some_ne_none _
      have heard := standing.heard synced known round
      exact heard.tally (same.stopped.trans live) (same.electorate ▸ known) tally

theorem Standing.halted {gate : Gate} (standing : gate.Standing) : gate.halted.Standing := by
  have untracked : gate.electorate = none → gate.book.polls = [] := by
    cases standing with
    | stopped _ _ untracked => exact untracked
    | idle _ _ _ untracked => exact fun _ => untracked
    | active _ _ known _ | settled _ _ known _ => exact fun unknown => absurd unknown known
  unfold Gate.halted
  split
  · exact standing
  · exact .stopped rfl rfl untracked

/-- Each call leaves the gate with a phase that stands for its current round. -/
theorem Standing.deed {settings : Settings} {deed : Deed} (standing : deed.before.Standing)
    (synced : deed.before.round = deed.before.book.current) (forward : deed.Forward)
    (done : deed.Done settings)
    : deed.after.Standing := by
  cases done with
  | vote ends => exact standing.vote synced ends
  | switch ends => exact standing.switch synced forward ends
  | receive ends => exact standing.receive synced ends
  | rebroadcast ends =>
      cases ends with
      | spent | sent _ _ _ => exact standing
  | stop _ => exact standing.halted

/-- A stopped gate stays as it is. -/
theorem Deed.Done.after_eq_of_stopped {settings : Settings} {deed : Deed}
    (done : deed.Done settings) (halted : deed.before.stopped = true)
    : deed.after = deed.before := by
  cases done with
  | vote ends =>
      cases ends with
      | refused _ => rfl
      | cast live _ _ _ _ _ => cases live.symm.trans halted
  | switch ends =>
      cases ends with
      | refused _ => rfl
      | opened live _ _ | replayed live _ _ | decided live _ _ _ => cases live.symm.trans halted
  | receive ends =>
      cases ends with
      | ignored | dropped => rfl
      | answered _ _ _ _ _ => rfl
      | collected live _ _ _ _ _ => cases live.symm.trans halted
  | rebroadcast ends =>
      cases ends with
      | spent | sent _ _ _ => rfl
  | stop before => exact if_pos halted

theorem Deed.Done.current_of_vote {settings : Settings} {deed : Deed} (done : deed.Done settings)
    {candidate : Candidate} {electorate : Electorate} (call : deed.call = .vote candidate electorate)
    : deed.after.book.current = deed.before.book.current
      ∨ deed.after.book.current = candidate.round := by
  cases done with
  | vote ends =>
      cases call
      exact ends.current_eq
  | switch _ | receive _ | rebroadcast _ | stop _ => cases call

theorem Deed.Done.current_of_receive {settings : Settings} {deed : Deed} (done : deed.Done settings)
    {votes : List Vote} (call : deed.call = .receive votes)
    : deed.after.book.current = deed.before.book.current := by
  cases done with
  | receive ends => exact ends.current_eq
  | vote _ | switch _ | rebroadcast _ | stop _ => cases call

/-- Only a stop stops a gate. -/
theorem Deed.Done.stopped_eq {settings : Settings} {deed : Deed} (done : deed.Done settings)
    (going : deed.call ≠ .stop)
    : deed.after.stopped = deed.before.stopped := by
  cases done with
  | vote ends =>
      cases ends with
      | refused _ => rfl
      | cast _ _ _ _ _ tally => exact tally.rephased.stopped.trans (stopped_begun _ _ _ _)
  | switch ends =>
      rcases ends.settles with ⟨rfl, -⟩ | ⟨roster, _, _, _, -, -, -, same⟩
      · rfl
      · exact same.stopped.trans (stopped_moveTo _ ⟨roster, none⟩ _)
  | receive ends =>
      cases ends with
      | ignored | dropped => rfl
      | answered _ _ _ _ _ => rfl
      | collected _ _ _ _ _ tally =>
          exact tally.rephased.stopped.trans (rephased_heard _ _).stopped
  | rebroadcast ends =>
      cases ends with
      | spent | sent _ _ _ => rfl
  | stop _ => exact absurd rfl going

-----------------------------------------------------------------------------------------
-- Runs
-----------------------------------------------------------------------------------------

/-- The phase, the round and the electorate of a gate agree with its polls. -/
structure Consistent (gate : Gate) : Prop where
  round : gate.round = gate.book.current
  stopped : gate.phase = .stopped ↔ gate.stopped = true
  idle : gate.phase ≠ .stopped → (gate.phase = .idle ↔ gate.electorate = none)
  untracked : gate.electorate = none → gate.book.tracked = 0
  undecided
    : ∀ round, gate.phase = .voting round ∨ gate.phase = .deciding round →
        round = gate.book.current ∧ gate.book.decision round = none
  frozen
    : ∀ round, gate.phase = .frozen round →
        round = gate.book.current ∧ (gate.book.decision round).isSome
  settled
    : gate.phase ≠ .stopped → (gate.book.decision gate.book.current).isSome →
        gate.phase = .frozen gate.book.current

theorem Standing.consistent {gate : Gate} (standing : gate.Standing)
    (synced : gate.round = gate.book.current)
    : gate.Consistent := by
  cases standing with
  | stopped phase halted untracked =>
      constructor <;> simp_all [PollBook.tracked]
  | idle phase live unknown untracked =>
      constructor <;>
        simp_all [PollBook.tracked, PollBook.decision, PollBook.poll, PollBook.poll?, Poll.empty]
  | active phase live known undecided =>
      rcases phase with phase | phase <;> constructor <;> simp_all
  | settled phase live known decided =>
      constructor <;> simp_all

/-- As long as no switch leads back, the phase stands for the current round; by induction on the
calls.
-/
theorem Run.standing {settings : Settings} {window : UInt64} {deeds : List Deed} {gate : Gate}
    (run : Run settings window deeds gate) (forward : ∀ deed ∈ deeds, deed.Forward)
    : gate.Standing := by
  induction run with
  | start => exact standing_initial window
  | next run call _ ih =>
      obtain ⟨earlier, last⟩ := List.forall_mem_append.mp forward
      have last := List.forall_mem_singleton.mp last
      exact (ih earlier).deed run.consults.round last (call.done settings _)

/-- A gate that was stopped stays so; by induction on the calls. -/
theorem Run.stays_stopped {settings : Settings} {window : UInt64} {deeds : List Deed} {gate : Gate}
    (run : Run settings window deeds gate) (forward : ∀ deed ∈ deeds, deed.Forward) {deed : Deed}
    (member : deed ∈ deeds) (phase : deed.after.phase = .stopped)
    : gate.phase = .stopped := by
  induction run with
  | start => cases member
  | @next deeds gate run call _ ih =>
      obtain ⟨forward, -⟩ := List.forall_mem_append.mp forward
      rcases List.mem_append.mp member with earlier | last
      · have stopped := ih forward earlier
        have consistent := (run.standing forward).consistent run.consults.round
        rw [(call.done settings gate).after_eq_of_stopped (consistent.stopped.mp stopped)]
        exact stopped
      · exact List.mem_singleton.mp last ▸ phase

/-- As long as no switch leads back, a gate is consistent: its electorate is that of its current
round; it is idle just until it knows one, and tracks nothing before that; it votes or decides in
the current round while that is undecided, and is frozen in it once it is decided. A gate that was
stopped at some time is so for good.
-/
theorem phases_consistent {settings : Settings} {window : UInt64} {deeds : List Deed} {gate : Gate}
    (run : Run settings window deeds gate) (forward : ∀ deed ∈ deeds, deed.Forward)
    : gate.Consistent
      ∧ ∀ deed ∈ deeds, deed.after.phase = .stopped → gate.phase = .stopped := by
  refine ⟨(run.standing forward).consistent run.consults.round, ?_⟩
  exact fun deed member phase => run.stays_stopped forward member phase

/-- A switch under the roster that its peers make up. -/
theorem Call.deed_switch {peers : List Peer} {roster : Roster}
    (arranged : Roster.ofPeers peers = .ok roster) (round : Round) (settings : Settings)
    (gate : Gate)
    : (Call.switch round peers).deed settings gate
      = let (result, after, effects) := (switchUnder round roster).run gate
        ⟨.switch round peers, gate, .switched result, after, effects⟩ := by
  simp [deed, activity, switch_of_arranged arranged]

/-- A gate has moved on to the next round when the last vote for a block of its first one comes in.
-/
theorem phases_consistent_of_late_commit
    : ∃ deeds gate,
        Run (.numbered 1) 10 deeds gate
        ∧ (∀ deed ∈ deeds, deed.Forward)
        ∧ (gate.book.decision ⟨5, 0⟩).isSome ∧ gate.phase = .voting ⟨6, 0⟩
        ∧ gate.Consistent := by
  have voted := (Run.start : Run (.numbered 1) 10 [] _).next (.vote (.numbered 1) ⟨.four, none⟩)
    trivial
  have heard := voted.next (.receive [.numbered 2 (.numbered 1)]) trivial
  have moved := heard.next (.switch ⟨6, 0⟩ Roster.four.peers) trivial
  have late := moved.next (.receive [.numbered 3 (.numbered 1)]) trivial
  rw [Call.deed_switch Roster.ofPeers_four] at late
  refine ⟨_, _, late, by decide, by decide, by decide, ?_⟩
  exact (phases_consistent late (by decide)).1

end Quorum.Gate
