import Quorum.Proofs.Agreement.Round
import Quorum.Proofs.Gate.Run
import Quorum.Proofs.PollBook.Growth

/-! Who decides a round. A round is decided under an electorate that was named for it, or by votes
that come in late, under the one that was named for the round that is current then.
-/

namespace Quorum

namespace PollBook

-----------------------------------------------------------------------------------------
-- New decisions
-----------------------------------------------------------------------------------------

theorem decision_put (book : PollBook) (poll : Poll) (round : Round)
    : (book.put poll).decision round
      = if poll.round = round then poll.decision else book.decision round := by
  split
  · next own => rw [decision, poll_put_own own]
  · next other => rw [decision, poll_put_of_ne other, decision]

theorem not_decided_of_put {book : PollBook} {poll : Poll} {round : Round} {outcome : Outcome}
    (open_poll : poll.decision = none) (before : book.decision round = none)
    (after : (book.put poll).decision round = some outcome)
    : False := by
  rw [decision_put] at after
  split at after
  · cases open_poll.symm.trans after
  · cases before.symm.trans after

/-- A decision that comes with a frozen poll is the outcome of that poll. -/
theorem decided_of_freeze {book : PollBook} {poll : Poll} {electorate : Electorate}
    {found outcome : Outcome} {round : Round} (open_poll : poll.decision = none)
    (decides : poll.outcome? electorate = some found) (before : book.decision round = none)
    (after : (book.put (poll.freeze found)).decision round = some outcome)
    : round = poll.round ∧ found = outcome
      ∧ ((book.put (poll.freeze found)).poll round).outcome? electorate = some outcome := by
  have own : poll.round = round := by
    by_contra other
    rw [decision_put, if_neg (by exact other), before] at after
    cases after
  rw [decision_put_freeze own open_poll] at after
  cases after
  refine ⟨own.symm, rfl, ?_⟩
  rw [poll_put_own (by exact own), Poll.outcome?_freeze]
  exact decides

/-- A decision that comes with an insertion is that of its round, under its electorate, and is told
of.
-/
theorem decided_of_insert {book : PollBook} {round decided : Round} {votes : List Vote}
    {electorate : Electorate} {outcome : Outcome} (before : book.decision decided = none)
    (after : (book.insert round votes (some electorate)).1.decision decided = some outcome)
    : decided = round ∧ decided ≤ book.current
      ∧ (book.insert round votes (some electorate)).2.outcome = some outcome
      ∧ ((book.insert round votes (some electorate)).1.poll decided).outcome? electorate
        = some outcome := by
  generalize result : book.insert round votes (some electorate) = receipt at after ⊢
  have ends := result ▸ book.insertion round votes (some electorate)
  have still_open {poll : Poll} {intake : Intake} (active : (book.poll round).decision = none)
      (taken : (book.poll round).insert votes = (poll, intake))
      : poll.decision = none :=
    (decision_of_taken taken).trans active
  cases ends with
  | refused _ => cases before.symm.trans after
  | announced _ active taken _ _ _ =>
      have still := still_open active taken
      exact (not_decided_of_put (by exact still) before after).elim
  | retained _ active taken _ _ =>
      exact (not_decided_of_put (still_open active taken) before after).elim
  | undecided _ active taken _ _ =>
      exact (not_decided_of_put (still_open active taken) before after).elim
  | decided _ active taken reached decides =>
      obtain ⟨same, rfl, outcome⟩ :=
        decided_of_freeze (still_open active taken) decides before after
      have own := same.trans (round_of_taken taken)
      exact ⟨own, own ▸ Round.not_lt.mp reached, rfl, outcome⟩

theorem decided_of_evaluate {book later : PollBook} {round decided : Round}
    {electorate : Electorate} {ruling : Option Ruling} {outcome : Outcome}
    (evaluated : book.evaluate round electorate = (later, ruling))
    (before : book.decision decided = none) (after : later.decision decided = some outcome)
    : decided = round ∧ ruling = some ⟨outcome, true⟩
      ∧ (later.poll decided).outcome? electorate = some outcome := by
  have ends := evaluated ▸ book.evaluation round electorate
  cases ends with
  | untracked _ | stored _ | undecided _ _ => cases before.symm.trans after
  | decided active decides =>
      obtain ⟨same, rfl, outcome⟩ := decided_of_freeze active decides before after
      exact ⟨same.trans (round_poll book round), rfl, outcome⟩

end PollBook

namespace Gate

-----------------------------------------------------------------------------------------
-- Electorates that are named
-----------------------------------------------------------------------------------------

/-- The round that a call enters, with the electorate that it names for it. -/
def Deed.supplied? (deed : Deed) : Option (Round × Electorate) :=
  match deed.call, deed.reply with
  | .vote candidate electorate, .voted (.ok ()) => some (candidate.round, electorate)
  | .switch round peers, .switched (.ok _) =>
      match Roster.ofPeers peers with
      | .ok roster => some (round, ⟨roster, none⟩)
      | .error _ => none
  | _, _ => none

/-- The call decides the round. -/
def Deed.Freezes (deed : Deed) (round : Round) (outcome : Outcome) : Prop :=
  deed.before.book.decision round = none ∧ deed.after.book.decision round = some outcome

instance (deed : Deed) (round : Round) (outcome : Outcome)
    : Decidable (deed.Freezes round outcome) :=
  inferInstanceAs (Decidable (_ ∧ _))

/-- The votes that are held of the round give the outcome under the electorate. -/
def Decides (gate : Gate) (electorate : Electorate) (round : Round) (outcome : Outcome) : Prop :=
  (gate.book.poll round).outcome? electorate = some outcome

instance (gate : Gate) (electorate : Electorate) (round : Round) (outcome : Outcome)
    : Decidable (gate.Decides electorate round outcome) :=
  inferInstanceAs (Decidable (_ = _))

theorem decides_of_tally {round decided : Round} {votes : List Vote} {electorate : Electorate}
    {gate last : Gate} {effects : List Effect} {outcome : Outcome}
    (tally : Tally round votes electorate gate (last, effects))
    (before : gate.book.decision decided = none)
    (after : last.book.decision decided = some outcome)
    : decided = round ∧ decided ≤ gate.book.current
      ∧ (gate.polled round votes electorate).2.outcome = some outcome
      ∧ last.Decides electorate decided outcome := by
  rw [tally.rephased.book] at after
  rw [Decides, tally.rephased.book]
  exact PollBook.decided_of_insert before after

/-- A switch decides its round alone, under the roster of its peers. -/
theorem Switching.decides {round decided : Round} {peers : List Peer} {gate last : Gate}
    {result : Except Fault (Option Outcome)} {effects : List Effect} {outcome : Outcome}
    (ends : Switching round peers gate (result, last, effects))
    (before : gate.book.decision decided = none)
    (after : last.book.decision decided = some outcome)
    : ∃ roster found, Roster.ofPeers peers = .ok roster ∧ result = .ok found
        ∧ decided = round ∧ last.Decides ⟨roster, none⟩ decided outcome := by
  rcases ends.settles with ⟨rfl, -⟩ | ⟨roster, found, book, _, arranged, result, evaluated, phase⟩
  · cases before.symm.trans after
  · have moved := PollBook.decision_advance_of_none before round
    have book_last : last.book = book := phase.book
    rw [book_last] at after
    obtain ⟨own, -, decides⟩ := PollBook.decided_of_evaluate evaluated moved after
    rw [← book_last] at decides
    exact ⟨roster, found, arranged, result, own, decides⟩

/-- A bundle decides a round that is not ahead, under the electorate that the gate consults. -/
theorem Receiving.decides {settings : Settings} {decided : Round} {votes : List Vote}
    {gate last : Gate} {effects : List Effect} {outcome : Outcome}
    (ends : Receiving settings votes gate (last, effects))
    (before : gate.book.decision decided = none)
    (after : last.book.decision decided = some outcome)
    : ∃ electorate, gate.electorate = some electorate ∧ decided ≤ gate.book.current
        ∧ last.Decides electorate decided outcome := by
  cases ends with
  | ignored | dropped | answered _ _ _ _ _ => cases before.symm.trans after
  | @collected round electorate _ _ _ _ _ _ consulted tally =>
      have heard := (rephased_heard round gate).book
      rw [← heard] at before
      obtain ⟨-, reached, -, decides⟩ := decides_of_tally tally before after
      exact ⟨electorate, consulted, heard ▸ reached, decides⟩

/-- A call decides a round under the electorate that it names for it, or as a bundle of a round that
is not ahead, under the one that the gate consults.
-/
theorem Deed.Freezes.decides {settings : Settings} {deed : Deed} {round : Round}
    {outcome : Outcome} (freezes : deed.Freezes round outcome) (done : deed.Done settings)
    : ∃ electorate, deed.after.Decides electorate round outcome
        ∧ (deed.supplied? = some (round, electorate)
          ∨ (∃ votes, deed.call = .receive votes) ∧ round ≤ deed.before.book.current
            ∧ deed.before.electorate = some electorate) := by
  obtain ⟨before, after⟩ := freezes
  cases done with
  | @vote candidate electorate _ _ _ _ ends =>
      cases ends with
      | refused _ => cases before.symm.trans after
      | cast _ _ _ _ _ tally =>
          have moved := PollBook.decision_advance_of_none before candidate.round
          rw [← book_begun candidate.round _ electorate] at moved
          obtain ⟨rfl, -, -, decides⟩ := decides_of_tally tally moved after
          exact ⟨electorate, decides, .inl rfl⟩
  | switch ends =>
      obtain ⟨roster, found, arranged, rfl, rfl, decides⟩ := ends.decides before after
      refine ⟨_, decides, .inl ?_⟩
      simp only [Deed.supplied?, arranged]
  | @receive votes _ _ _ ends =>
      obtain ⟨electorate, consulted, reached, decides⟩ := ends.decides before after
      exact ⟨electorate, decides, .inr ⟨⟨votes, rfl⟩, reached, consulted⟩⟩
  | rebroadcast ends =>
      cases ends with
      | spent | sent _ _ _ => cases before.symm.trans after
  | stop gate =>
      cases before.symm.trans (gate.book_halted ▸ after)

-----------------------------------------------------------------------------------------
-- The electorate that is consulted
-----------------------------------------------------------------------------------------

/-- The gate consults the electorate that was named for its current round. -/
structure Consults (deeds : List Deed) (gate : Gate) : Prop where
  round : gate.round = gate.book.current
  supplied
    : ∀ electorate, gate.electorate = some electorate →
        (gate.round, electorate) ∈ deeds.filterMap Deed.supplied?

theorem consults_initial (window : UInt64) : Consults [] (initial window) where
  round := rfl
  supplied := by simp [initial]

namespace Consults

variable {deeds : List Deed} {gate later : Gate}

theorem congr (consults : Consults deeds gate) (round : later.round = gate.round)
    (electorate : later.electorate = gate.electorate)
    (current : later.book.current = gate.book.current)
    : Consults deeds later where
  round := by rw [round, current, consults.round]
  supplied := by rw [round, electorate]; exact consults.supplied

theorem rephased (consults : Consults deeds gate) (phase : Rephased gate later)
    : Consults deeds later :=
  consults.congr phase.round phase.electorate (congrArg PollBook.current phase.book)

theorem append (consults : Consults deeds gate) (deed : Deed)
    : Consults (deeds ++ [deed]) gate := by
  refine ⟨consults.round, fun electorate consulted => ?_⟩
  rw [List.filterMap_append]
  exact List.mem_append_left _ (consults.supplied electorate consulted)

theorem tally (consults : Consults deeds gate) {round : Round} {votes : List Vote}
    {electorate : Electorate} {effects : List Effect}
    (tally : Tally round votes electorate gate (later, effects))
    : Consults deeds later := by
  have polled : Consults deeds { gate with book := (gate.polled round votes electorate).1 } :=
    consults.congr rfl rfl (PollBook.current_insert ..)
  exact polled.rephased tally.rephased

/-- A call that names an electorate moves the gate to its round, unless that is behind. -/
theorem moveTo (consults : Consults deeds gate) {deed : Deed} {round : Round}
    {electorate : Electorate} (names : deed.supplied? = some (round, electorate))
    : Consults (deeds ++ [deed]) (gate.moveTo round electorate) := by
  have own : (round, electorate) ∈ (deeds ++ [deed]).filterMap Deed.supplied? :=
    List.mem_filterMap.mpr ⟨deed, by simp, names⟩
  constructor
  · rw [round_moveTo, book_moveTo, PollBook.current_advance, consults.round]
    by_cases reached : gate.book.current ≤ round
    · rw [if_pos reached]
      split
      · next behind => exact Round.le_antisymm behind reached
      · rfl
    · rw [if_neg reached, if_pos (Round.le_of_not_le reached)]
  · rw [round_moveTo, electorate_moveTo]
    split
    · rintro _ ⟨⟩
      exact own
    · exact (consults.append deed).supplied

theorem switch {deeds : List Deed} {round : Round} {peers : List Peer} {before after : Gate}
    {result : Except Fault (Option Outcome)} {effects : List Effect}
    (consults : Consults deeds before)
    (ends : Switching round peers before (result, after, effects))
    : Consults (deeds ++ [⟨.switch round peers, before, .switched result, after, effects⟩])
        after := by
  rcases ends.settles with ⟨rfl, -⟩ | ⟨roster, found, book, _, arranged, rfl, evaluated, phase⟩
  · exact consults.append _
  · have names
        : Deed.supplied? ⟨.switch round peers, before, .switched (.ok found), after, effects⟩
          = some (round, ⟨roster, none⟩) := by
      simp only [Deed.supplied?, arranged]
    have settled : Consults _ (before.settled round roster book) :=
      (consults.moveTo names).congr rfl rfl (current_settled evaluated)
    exact settled.rephased phase

theorem deed {settings : Settings} {deeds : List Deed} {deed : Deed}
    (consults : Consults deeds deed.before) (done : deed.Done settings)
    : Consults (deeds ++ [deed]) deed.after := by
  cases done with
  | @vote candidate electorate before _ _ _ ends =>
      cases ends with
      | refused _ => exact consults.append _
      | @cast vote _ _ _ _ _ _ _ tally =>
          have kept : Consults deeds
              { before with ownVotes := before.ownVotes ++ [(candidate.round, vote)] } :=
            consults.congr rfl rfl rfl
          exact ((kept.moveTo rfl).rephased (rephased_enter _ _)).tally tally
  | switch ends => exact consults.switch ends
  | receive ends =>
      cases ends with
      | ignored | dropped | answered _ _ _ _ _ => exact consults.append _
      | collected _ _ _ _ _ tally =>
          exact ((consults.append _).rephased (rephased_heard _ _)).tally tally
  | rebroadcast ends =>
      cases ends with
      | spent | sent _ _ _ => exact consults.append _
  | stop before =>
      refine (consults.append _).congr before.round_halted before.electorate_halted ?_
      exact congrArg PollBook.current before.book_halted

end Consults

/-- In every run the gate consults the electorate of its current round, by induction on the calls.
-/
theorem Run.consults {settings : Settings} {window : UInt64} {deeds : List Deed} {gate : Gate}
    (run : Run settings window deeds gate)
    : Consults deeds gate := by
  induction run with
  | start => exact consults_initial _
  | next _ call _ ih => exact Consults.deed ih (call.done settings _)

/-- A round is decided under an electorate that was named for it, or by a bundle once it is past,
under the one that was named for the round that is current by then.
-/
theorem decided_under_supplied {settings : Settings} {window : UInt64} {deeds : List Deed}
    {gate : Gate} (run : Run settings window deeds gate) (call : Call) {round : Round}
    {outcome : Outcome} (freezes : (call.deed settings gate).Freezes round outcome)
    : ∃ electorate,
        (call.deed settings gate).after.Decides electorate round outcome
        ∧ ((round, electorate) ∈ (deeds ++ [call.deed settings gate]).filterMap Deed.supplied?
          ∨ (∃ votes, call = .receive votes) ∧ round < gate.book.current
            ∧ (gate.book.current, electorate) ∈ deeds.filterMap Deed.supplied?) := by
  obtain ⟨electorate, decides, named⟩ := freezes.decides (call.done settings gate)
  refine ⟨electorate, decides, ?_⟩
  have consults := run.consults
  rcases named with named | ⟨bundle, reached, consulted⟩
  · exact .inl (List.mem_filterMap.mpr ⟨_, by simp, named⟩)
  · have supplied := consults.supplied electorate consulted
    rw [consults.round] at supplied
    rcases reached with behind | current
    · exact .inr ⟨bundle, behind, supplied⟩
    · rw [List.filterMap_append]
      exact .inl (List.mem_append_left _ (current ▸ supplied))

/-- A roster of one peer. -/
def loneRoster : Roster where
  peers := [⟨"b", .numbered 2⟩]
  nonempty := by decide
  ascending := List.pairwise_singleton _ _
  distinctKeys := by decide

/-- The vote of the second peer for a block of the first round. -/
def lateVote : Vote :=
  .numbered 2 ⟨⟨1, 0⟩, [1], [1]⟩

/-- The outcome of the first round by the one vote. -/
def lateCommit : Outcome :=
  ⟨.commit, ⟨1, 0⟩, some ⟨⟨1, 0⟩, [1], [1]⟩, [lateVote], .primary⟩

/-- A gate votes among four, and then in the next round alone with the second peer, when the vote of
that peer for the first round comes in.
-/
theorem exists_lateCommit
    : ∃ deeds gate,
        Run (.numbered 1) 10 deeds gate
        ∧ (deeds ++ [Call.deed (.numbered 1) (.receive [lateVote]) gate]).filterMap Deed.supplied?
          = [(⟨1, 0⟩, ⟨.four, none⟩), (⟨2, 0⟩, ⟨loneRoster, none⟩)]
        ∧ (Call.deed (.numbered 1) (.receive [lateVote]) gate).Freezes ⟨1, 0⟩ lateCommit
        ∧ ¬ (Call.deed (.numbered 1) (.receive [lateVote]) gate).after.Decides ⟨.four, none⟩ ⟨1, 0⟩
            lateCommit := by
  have first := (Run.start : Run (.numbered 1) 10 [] _).next (.vote (.empty ⟨1, 0⟩) ⟨.four, none⟩)
    trivial
  have second := first.next (.vote (.empty ⟨2, 0⟩) ⟨loneRoster, none⟩) trivial
  exact ⟨_, _, second, rfl, by decide, by decide⟩

/-- The first round is decided by one vote, as the second one alone may be. -/
theorem decided_under_supplied_of_later
    : ∃ deeds gate electorate,
        Run (.numbered 1) 10 deeds gate
        ∧ (Call.deed (.numbered 1) (.receive [lateVote]) gate).Freezes ⟨1, 0⟩ lateCommit
        ∧ (Call.deed (.numbered 1) (.receive [lateVote]) gate).after.Decides electorate ⟨1, 0⟩
            lateCommit := by
  obtain ⟨deeds, gate, run, -, freezes, -⟩ := exists_lateCommit
  obtain ⟨electorate, decides, -⟩ := decided_under_supplied run (.receive [lateVote]) freezes
  exact ⟨deeds, gate, electorate, run, freezes, decides⟩

/-- Not every round is decided under an electorate that was named for it. -/
theorem not_decided_under_own
    : ¬ ∀ (settings : Settings) (window : UInt64) (deeds : List Deed) (gate : Gate) (call : Call)
          (round : Round) (outcome : Outcome),
        Run settings window deeds gate →
        (call.deed settings gate).Freezes round outcome →
        ∃ electorate,
          (call.deed settings gate).after.Decides electorate round outcome
          ∧ (round, electorate)
            ∈ (deeds ++ [call.deed settings gate]).filterMap Deed.supplied? := by
  intro own
  obtain ⟨deeds, gate, run, supplied, freezes, short⟩ := exists_lateCommit
  obtain ⟨electorate, decides, named⟩ :=
    own (.numbered 1) 10 deeds gate (.receive [lateVote]) ⟨1, 0⟩ lateCommit run freezes
  rw [supplied] at named
  have first : electorate = ⟨.four, none⟩ := by
    simpa using named
  exact short (first ▸ decides)

end Gate

end Quorum
