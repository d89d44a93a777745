import Quorum.Proofs.Gate.Handover
import Quorum.Proofs.Gate.Retention
import Quorum.Proofs.Gate.Stopping

/-! Switches to rounds where a gate has been. A switch that is made twice does nothing the second
time. A switch back to an earlier round moves neither the polls nor the electorate, but it does move
the phase, and it may decide the round and hand over its block.
-/

namespace Quorum.Gate

open Activity

-----------------------------------------------------------------------------------------
-- Gates that need not move
-----------------------------------------------------------------------------------------

/-- The gate has come to the round or is past it, so that a move there has nothing left to do. -/
structure Arrived (round : Round) (electorate : Electorate) (gate : Gate) : Prop where
  reached : round ≤ gate.book.current
  pruned
    : ∀ entry ∈ gate.ownVotes,
        Word.saturatingSub round.height gate.book.window ≤ entry.1.height
  adopted : gate.round ≤ round → gate.round = round ∧ gate.electorate = some electorate

section

variable {round : Round} {electorate : Electorate} {gate later : Gate}

theorem arrived_moveTo (round : Round) (electorate : Electorate) (gate : Gate)
    : (gate.moveTo round electorate).Arrived round electorate where
  reached := by
    rw [book_moveTo]
    exact Round.not_lt.mp (gate.book.not_current_lt_advance round)
  pruned entry member := by
    rw [ownVotes_moveTo] at member
    rw [book_moveTo]
    exact of_decide_eq_true (List.mem_filter.mp member).2
  adopted := by
    rw [round_moveTo, electorate_moveTo]
    split
    · exact fun _ => ⟨rfl, rfl⟩
    · next past => exact fun behind => absurd behind past

namespace Arrived

theorem congr (arrived : gate.Arrived round electorate)
    (current : later.book.current = gate.book.current)
    (window : later.book.window = gate.book.window) (own : later.ownVotes = gate.ownVotes)
    (latest : later.round = gate.round) (known : later.electorate = gate.electorate)
    : later.Arrived round electorate where
  reached := current ▸ arrived.reached
  pruned := window ▸ own ▸ arrived.pruned
  adopted := latest ▸ known ▸ arrived.adopted

theorem rephased (arrived : gate.Arrived round electorate) (phase : Rephased gate later)
    : later.Arrived round electorate :=
  arrived.congr (congrArg PollBook.current phase.book) (congrArg PollBook.window phase.book)
    phase.ownVotes phase.round phase.electorate

theorem moveTo_eq (arrived : gate.Arrived round electorate)
    : gate.moveTo round electorate = gate := by
  have advanced : gate.advance round = gate := by
    rw [advance, PollBook.advance_of_le arrived.reached]
  have pruned : gate.forget round = gate := by
    have kept := List.filter_eq_self.mpr fun entry member =>
      decide_eq_true (arrived.pruned entry member)
    rw [forget, kept]
  have adopted : gate.adopt round electorate = gate := by
    unfold adopt
    split
    · next latest =>
        obtain ⟨same, known⟩ := arrived.adopted latest
        rw [← same, ← known]
    · rfl
  rw [moveTo, advanced, pruned, adopted]

/-- The end of a switch to a round where the gate has been: only the evaluation of its polls is left.
-/
theorem run_switch {peers : List Peer} {roster : Roster}
    (arrived : gate.Arrived round ⟨roster, none⟩) (live : gate.stopped = false)
    (arranged : Roster.ofPeers peers = .ok roster)
    : (switch round peers).run gate
      = let (book, ruling) := gate.book.evaluate round ⟨roster, none⟩
        conclude round ruling { gate with book } := by
  rw [Gate.run_switch round live arranged, PollBook.advance_of_le arrived.reached]
  simp only [settled, arrived.moveTo_eq]

end Arrived

end

-----------------------------------------------------------------------------------------
-- Switches made twice
-----------------------------------------------------------------------------------------

section

variable {round : Round}

theorem arrived_settled {roster : Roster} {gate : Gate} {book : PollBook} {ruling : Option Ruling}
    (evaluated : (gate.book.advance round).evaluate round ⟨roster, none⟩ = (book, ruling))
    : (gate.settled round roster book).Arrived round ⟨roster, none⟩ := by
  have moved := arrived_moveTo round ⟨roster, none⟩ gate
  refine moved.congr (current_settled evaluated) ?_ rfl rfl rfl
  obtain rfl := congrArg Prod.fst evaluated
  rw [book_moveTo]
  exact (PollBook.Grows.evaluate ..).window

theorem rephased_conclude (round : Round) (ruling : Option Ruling) (gate : Gate)
    : Rephased gate (conclude round ruling gate).2.1 := by
  unfold conclude
  split
  · exact rephased_enter _ gate
  · exact rephased_enter _ gate
  · exact rephased_record _ gate

theorem enter_enter (phase : Phase) (gate : Gate)
    : (gate.enter phase).enter phase = gate.enter phase := by
  unfold enter
  split <;> simp [*]

/-- A new decision freezes its round. -/
theorem record_eq_enter {outcome : Outcome} (own : outcome.round = round)
    (terminal : outcome.Terminal) (gate : Gate)
    : (gate.record outcome).1 = gate.enter (.frozen round) := by
  simp only [record, if_pos terminal, own]

/-- After a switch with some findings, another that knows of them ends in the same gate. -/
theorem conclude_again {ruling : Option Ruling}
    (concludes
      : ∀ outcome, ruling = some ⟨outcome, true⟩ → outcome.round = round ∧ outcome.Terminal)
    (gate : Gate)
    : let first := conclude round ruling gate
      conclude round (ruling.map fun found => ⟨found.outcome, false⟩) first.2.1
        = (first.1, first.2.1, []) := by
  match ruling with
  | none => simp only [conclude, Option.map_none, enter_enter]
  | some ⟨outcome, false⟩ => simp only [conclude, Option.map_some, enter_enter]
  | some ⟨outcome, true⟩ =>
      obtain ⟨own, terminal⟩ := concludes outcome rfl
      simp only [conclude, Option.map_some, record_eq_enter own terminal, enter_enter]

theorem run_switch_again (round : Round) (peers : List Peer) (gate : Gate)
    : let first := (switch round peers).run gate
      (switch round peers).run first.2.1 = (first.1, first.2.1, []) := by
  by_cases usable : gate.stopped = false ∧ ∃ roster, Roster.ofPeers peers = .ok roster
  case neg =>
    obtain ⟨fault, run⟩ := run_switch_of_refused round fun live roster arranged =>
      usable ⟨live, roster, arranged⟩
    simp only [run]
  obtain ⟨live, roster, arranged⟩ := usable
  have run := Gate.run_switch round live arranged
  cases evaluated : (gate.book.advance round).evaluate round ⟨roster, none⟩ with
  | mk book ruling =>
      simp only [evaluated] at run
      have phase := rephased_conclude round ruling (gate.settled round roster book)
      have concludes
          : ∀ outcome, ruling = some ⟨outcome, true⟩ →
              outcome.round = round ∧ outcome.Terminal := by
        rintro outcome rfl
        exact PollBook.concludes_of_evaluate evaluated
      have again := conclude_again concludes (gate.settled round roster book)
      rw [← run] at phase again
      generalize (switch round peers).run gate = first at phase again ⊢
      have live_after : first.2.1.stopped = false :=
        phase.stopped.trans ((stopped_moveTo round ⟨roster, none⟩ gate).trans live)
      obtain rfl : first.2.1.book = book := phase.book
      intro first
      rw [((arrived_settled evaluated).rephased phase).run_switch live_after arranged,
        PollBook.evaluate_again evaluated]
      exact again

end

/-- A switch takes note of the decision that it gives, if the round was not decided before. -/
theorem Switching.effects_eq {round : Round} {peers : List Peer} {gate last : Gate}
    {found : Option Outcome} {effects : List Effect}
    (ends : Switching round peers gate (.ok found, last, effects))
    : effects
      = if gate.book.decision round = none then
          found.elim [] fun outcome => (gate.record outcome).2
        else [] := by
  have stored := gate.book.decision_advance_own round
  cases ends with
  | opened _ _ _ => split <;> rfl
  | replayed _ _ ruling =>
      have known := mt (PollBook.fresh_iff ruling).mpr Bool.false_ne_true
      rw [stored] at known
      exact (if_neg known).symm
  | decided _ _ ruling recorded =>
      have undecided := (PollBook.fresh_iff ruling).mp rfl
      rw [stored] at undecided
      rw [if_pos undecided]
      exact (congrArg Prod.snd recorded).symm

/-- A switch that is not refused leads to its round, or leaves the gate past it, gives the decision
that the gate then holds of it, and takes note of that if it is new. Made again at once, it is a replay,
whatever the gate and the peers, and whether it was refused or not: it gives the same result, leaves
the gate as the first one left it, and does nothing to its surroundings.
-/
theorem switch_again (settings : Settings) (round : Round) (peers : List Peer) (gate : Gate)
    : let call := Call.switch round peers
      let first := call.deed settings gate
      ((∃ found, first.reply = .switched (.ok found))
        ↔ gate.stopped = false ∧ ∃ roster, Roster.ofPeers peers = .ok roster)
      ∧ (∀ found, first.reply = .switched (.ok found) →
          round ≤ first.after.book.current ∧ first.after.book.decision round = found
          ∧ first.effects
            = if gate.book.decision round = none then
                found.elim [] fun outcome => (gate.record outcome).2
              else [])
      ∧ call.deed settings first.after = { first with before := first.after, effects := [] } := by
  have ends := switching round peers gate
  have again := run_switch_again round peers gate
  simp only [Call.deed, Call.activity, run_bind, run_pure, List.append_nil, Reply.switched.injEq]
  refine ⟨⟨?_, ?_⟩, fun found given => ?_, ?_⟩
  · rintro ⟨found, given⟩
    by_contra unusable
    obtain ⟨fault, run⟩ := run_switch_of_refused round fun live roster arranged =>
      unusable ⟨live, roster, arranged⟩
    rw [run] at given
    cases given
  · rintro ⟨live, roster, arranged⟩
    exact exists_switch_eq_ok arranged round live
  · generalize (switch round peers).run gate = ending at ends given ⊢
    obtain ⟨result, last, effects⟩ := ending
    cases given
    exact ⟨ends.reached, ends.decision_eq, ends.effects_eq⟩
  · rw [again]

-----------------------------------------------------------------------------------------
-- Gates of a run
-----------------------------------------------------------------------------------------

/-- Work that respects a stop leaves a phase that tells of it; by induction on the steps. -/
theorem Candid.run {α : Type} {activity : Activity α} (yields : Yields activity) {gate : Gate}
    (candid : gate.Candid)
    : (activity.run gate).2.1.Candid := by
  induction activity generalizing gate with
  | done value => exact candid
  | step act next ih =>
      obtain ⟨respects, rest⟩ := yields gate trivial
      exact ih _ rest (respects.candid candid)

theorem Call.yields (settings : Settings) (call : Call) : Yields (call.activity settings) := by
  cases call with
  | vote candidate electorate =>
      exact (yields_vote settings candidate electorate).bind fun _ => heeds_pure _
  | switch round peers => exact (yields_switch round peers).bind fun _ => heeds_pure _
  | receive votes => exact (yields_receive settings votes).bind fun _ => heeds_pure _
  | rebroadcast task => exact (yields_rebroadcast task).bind fun _ => heeds_pure _
  | stop => exact yields_stop.bind fun _ => heeds_pure _

section

variable {settings : Settings} {window : UInt64} {deeds : List Deed} {gate : Gate}

/-- By induction on the calls. -/
theorem Run.candid (run : Run settings window deeds gate) : gate.Candid := by
  induction run with
  | start => exact candid_initial window
  | next _ call _ ih => exact ih.run (call.yields settings)

/-- A gate of a run has arrived at every round behind its current one: it has dropped the own votes
below the window of a later round, and consults an electorate of that.
-/
theorem Run.arrived (run : Run settings window deeds gate) {round : Round}
    (behind : round < gate.book.current) (electorate : Electorate)
    : gate.Arrived round electorate where
  reached := .inl behind
  pruned entry member := by
    have above := PollBook.not_expired_iff.mp (run.recent entry member)
    have lower := Round.height_le (.inl behind)
    rw [UInt64.le_iff_toNat_le, Word.toNat_saturatingSub] at above ⊢
    omega
  adopted latest := by
    rw [run.consults.round] at latest
    exact absurd behind (Round.not_lt.mpr latest)

-----------------------------------------------------------------------------------------
-- Switches back
-----------------------------------------------------------------------------------------

/-- A phase of an earlier round is none that a gate has as long as no switch leads back. -/
theorem Standing.phase_ne (standing : gate.Standing) (live : gate.stopped = false) {round : Round}
    (behind : round < gate.book.current)
    : gate.phase ≠ .voting round ∧ gate.phase ≠ .frozen round := by
  have other : gate.book.current ≠ round := by
    rintro rfl
    exact Round.lt_irrefl _ behind
  cases standing with
  | stopped _ halted _ => cases live.symm.trans halted
  | idle phase _ _ _ => simp [phase]
  | active phase _ _ _ => rcases phase with phase | phase <;> simp [phase, other]
  | settled phase _ _ _ => simp [phase, other]

theorem vote_of_behind (settings : Settings) (live : gate.stopped = false) {candidate : Candidate}
    (behind : candidate.round < gate.book.current) (electorate : Electorate)
    : (Call.vote candidate electorate).deed settings gate
      = ⟨.vote candidate electorate, gate, .voted (.error (.staleRound candidate.round)), gate,
          []⟩ := by
  simp [Call.deed, Call.activity, vote, live, behind]

namespace Run

/-- A live gate enters any phase. -/
theorem enter_eq (run : Run settings window deeds gate) (live : gate.stopped = false)
    (phase : Phase) (book : PollBook)
    : enter phase { gate with book } = { gate with phase, book } :=
  if_neg fun halted => by cases live.symm.trans (run.candid.mp halted)

/-- A round that was dropped or never tracked is undecided, and no votes for it are held. -/
theorem open_of_untracked (run : Run settings window deeds gate) {round : Round}
    (absent : gate.book.Expired round ∨ ¬ gate.book.Tracks round) (electorate : Electorate)
    : gate.book.decision round = none ∧ ∀ outcome, ¬ gate.Decides electorate round outcome := by
  have untracked : ¬ gate.book.Tracks round :=
    absent.elim (run.confined.trimmed.not_tracks ·) id
  refine ⟨PollBook.decision_of_untracked untracked, fun outcome decides => ?_⟩
  exact untracked (PollBook.tracks_of_outcome? decides)

variable {round : Round} {peers : List Peer} {roster : Roster}
  (run : Run settings window deeds gate) (live : gate.stopped = false)
  (behind : round < gate.book.current) (arranged : Roster.ofPeers peers = .ok roster)

include run live behind arranged

/-- A switch back to an earlier round only evaluates the polls of that, and concludes from it. -/
theorem deed_switch_back
    : (Call.switch round peers).deed settings gate
      = let polls := gate.book.evaluate round ⟨roster, none⟩
        let ending := conclude round polls.2 { gate with book := polls.1 }
        ⟨.switch round peers, gate, .switched ending.1, ending.2.1, ending.2.2⟩ := by
  have ends := (run.arrived behind ⟨roster, none⟩).run_switch live arranged
  simp [Call.deed, Call.activity, ends]

theorem switch_back_of_decided {outcome : Outcome}
    (known : gate.book.decision round = some outcome)
    : (Call.switch round peers).deed settings gate
      = ⟨.switch round peers, gate, .switched (.ok (some outcome)),
          { gate with phase := .frozen round }, []⟩ := by
  rw [run.deed_switch_back live behind arranged, PollBook.evaluate_of_decision known]
  simp only [conclude, run.enter_eq live]

theorem switch_back_of_decides {outcome : Outcome} (undecided : gate.book.decision round = none)
    (decides : gate.Decides ⟨roster, none⟩ round outcome)
    : (Call.switch round peers).deed settings gate
      = ⟨.switch round peers, gate, .switched (.ok (some outcome)),
          { gate with
            phase := .frozen round
            book := gate.book.put ((gate.book.poll round).freeze outcome) },
          (gate.record outcome).2⟩ := by
  obtain ⟨own, terminal, -⟩ := decides.concludes
  rw [run.deed_switch_back live behind arranged, PollBook.evaluate_of_decides undecided decides]
  simp only [conclude, record_eq_enter own terminal, run.enter_eq live]
  rfl

theorem switch_back_of_open (undecided : gate.book.decision round = none)
    (short : ∀ outcome, ¬ gate.Decides ⟨roster, none⟩ round outcome)
    : (Call.switch round peers).deed settings gate
      = ⟨.switch round peers, gate, .switched (.ok none), { gate with phase := .voting round },
          []⟩ := by
  have open_still := Option.eq_none_iff_forall_ne_some.mpr short
  rw [run.deed_switch_back live behind arranged, PollBook.evaluate_of_open undecided open_still]
  simp only [conclude, run.enter_eq live]

/-- A switch back, by the three cases of what is known of the round, leads to a phase of that. -/
theorem phase_of_switch_back
    : let phase := ((Call.switch round peers).deed settings gate).after.phase
      phase = .voting round ∨ phase = .frozen round := by
  cases known : gate.book.decision round with
  | some outcome =>
      rw [run.switch_back_of_decided live behind arranged known]
      exact .inr rfl
  | none =>
      by_cases short : ∀ outcome, ¬ gate.Decides ⟨roster, none⟩ round outcome
      · rw [run.switch_back_of_open live behind arranged known short]
        exact .inl rfl
      · obtain ⟨outcome, decides⟩ := not_forall_not.mp short
        rw [run.switch_back_of_decides live behind arranged known decides]
        exact .inr rfl

end Run

end

/-- A switch back to an earlier round leaves the current round, the electorate and the own votes as
they are, but it moves the phase back. If the round is decided, the switch gives the decision and
freezes the gate there. If the votes that are held decide it only now, it freezes the gate there too,
and hands over the block of a commit. Otherwise, and so for a round that was dropped or never tracked,
it puts the gate into voting in a round where the gate refuses to vote. The first switch back always
changes the phase.
-/
theorem switch_back {settings : Settings} {window : UInt64} {deeds : List Deed} {gate : Gate}
    (run : Run settings window deeds gate) (live : gate.stopped = false) {round : Round}
    (behind : round < gate.book.current) {peers : List Peer} {roster : Roster}
    (arranged : Roster.ofPeers peers = .ok roster)
    : let deed := (Call.switch round peers).deed settings gate
      let opened : Deed :=
        ⟨.switch round peers, gate, .switched (.ok none), { gate with phase := .voting round }, []⟩
      (∀ outcome, gate.book.decision round = some outcome →
          deed = ⟨.switch round peers, gate, .switched (.ok (some outcome)),
            { gate with phase := .frozen round }, []⟩)
      ∧ (gate.book.decision round = none → ∀ outcome, gate.Decides ⟨roster, none⟩ round outcome →
          deed = ⟨.switch round peers, gate, .switched (.ok (some outcome)),
            { gate with
              phase := .frozen round
              book := gate.book.put ((gate.book.poll round).freeze outcome) },
            (gate.record outcome).2⟩
          ∧ ∀ candidate entered, (candidate, entered) ∈ commits deed.effects
              ↔ outcome.kind = .commit ∧ outcome.winner = some candidate ∧ entered = round)
      ∧ (gate.book.decision round = none →
          (∀ outcome, ¬ gate.Decides ⟨roster, none⟩ round outcome) → deed = opened)
      ∧ (gate.book.Expired round ∨ ¬ gate.book.Tracks round → deed = opened)
      ∧ ((∀ deed ∈ deeds, deed.Forward) → deed.after.phase ≠ gate.phase)
      ∧ ∀ candidate electorate, candidate.round = round →
          (Call.vote candidate electorate).deed settings gate
            = ⟨.vote candidate electorate, gate, .voted (.error (.staleRound round)), gate, []⟩ := by
  intro deed opened
  refine ⟨fun outcome known => run.switch_back_of_decided live behind arranged known,
    fun undecided outcome decides => ?_,
    fun undecided short => run.switch_back_of_open live behind arranged undecided short,
    fun absent => ?_, fun forward same => ?_, ?_⟩
  · have ends := run.switch_back_of_decides live behind arranged undecided decides
    obtain ⟨own, -, named⟩ := decides.concludes
    refine ⟨ends, fun candidate entered => ?_⟩
    rw [show deed.effects = (gate.record outcome).2 from congrArg Deed.effects ends,
      (Notes.record gate named).mem_commits]
    simp [own, eq_comm]
  · obtain ⟨undecided, short⟩ := run.open_of_untracked absent ⟨roster, none⟩
    exact run.switch_back_of_open live behind arranged undecided short
  · obtain ⟨not_voting, not_frozen⟩ := (run.standing forward).phase_ne live behind
    rcases run.phase_of_switch_back live behind arranged with voting | frozen
    · exact not_voting (same.symm.trans voting)
    · exact not_frozen (same.symm.trans frozen)
  · rintro candidate electorate rfl
    exact vote_of_behind settings live behind electorate

/-- The votes of three peers for a block. -/
def retainedVotes : List Vote :=
  [.numbered 2 (.numbered 1), .numbered 3 (.numbered 1), .numbered 4 (.numbered 1)]

/-- The outcome by these votes. -/
def retainedCommit : Outcome :=
  ⟨.commit, ⟨5, 0⟩, some (.numbered 1), retainedVotes, .primary⟩

/-- A gate votes, hears votes that suffice for the next height, and votes one height above that. It
has dropped its first round then, and has not decided the one that it passed over.
-/
theorem exists_retained
    : ∃ deeds gate,
        Run (.numbered 1) 1 deeds gate
        ∧ (gate.stopped = false ∧ gate.phase = .voting ⟨6, 0⟩ ∧ gate.book.current = ⟨6, 0⟩)
        ∧ gate.book.Expired ⟨4, 0⟩
        ∧ gate.book.decision ⟨5, 0⟩ = none
        ∧ gate.Decides ⟨.four, none⟩ ⟨5, 0⟩ retainedCommit := by
  have voted := (Run.start : Run (.numbered 1) 1 [] _).next (.vote (.empty ⟨4, 0⟩) ⟨.four, none⟩)
    trivial
  have heard := voted.next (.receive retainedVotes) trivial
  have moved := heard.next (.vote (.empty ⟨6, 0⟩) ⟨.four, none⟩) trivial
  exact ⟨_, _, moved, by decide, by decide, by decide, by decide⟩

/-- Back in the round that it passed over the gate freezes and hands over the block, and back in the
one that it dropped it is put into voting.
-/
theorem switch_back_of_retained
    : ∃ deeds gate,
        Run (.numbered 1) 1 deeds gate ∧ gate.phase = .voting ⟨6, 0⟩
        ∧ (let deed := (Call.switch ⟨5, 0⟩ Roster.four.peers).deed (.numbered 1) gate
          deed.after.phase = .frozen ⟨5, 0⟩ ∧ (.numbered 1, ⟨5, 0⟩) ∈ commits deed.effects)
        ∧ ((Call.switch ⟨4, 0⟩ Roster.four.peers).deed (.numbered 1) gate).after.phase
          = .voting ⟨4, 0⟩ := by
  obtain ⟨deeds, gate, run, ⟨live, phase, current⟩, expired, undecided, decides⟩ := exists_retained
  have passed : (⟨5, 0⟩ : Round) < gate.book.current := by rw [current]; decide
  have dropped : (⟨4, 0⟩ : Round) < gate.book.current := by rw [current]; decide
  obtain ⟨-, frozen, -⟩ := switch_back run live passed Roster.ofPeers_four
  obtain ⟨ends, handed⟩ := frozen undecided retainedCommit decides
  obtain ⟨-, -, -, opened, -⟩ := switch_back run live dropped Roster.ofPeers_four
  refine ⟨deeds, gate, run, phase, ⟨congrArg (·.after.phase) ends, ?_⟩,
    congrArg (·.after.phase) (opened (.inl expired))⟩
  exact (handed _ _).mpr ⟨rfl, rfl, rfl⟩

/-- A switch back is not without effect on the phase and on what is handed over. -/
theorem not_switch_back_ignored
    : ¬ ∀ (settings : Settings) (window : UInt64) (deeds : List Deed) (gate : Gate) (round : Round)
          (peers : List Peer) (roster : Roster),
        Run settings window deeds gate → gate.stopped = false → round < gate.book.current →
        Roster.ofPeers peers = .ok roster →
        let deed := (Call.switch round peers).deed settings gate
        deed.after.phase = gate.phase ∧ commits deed.effects = [] := by
  intro ignored
  obtain ⟨deeds, gate, run, ⟨live, phase, current⟩, -, undecided, decides⟩ := exists_retained
  have passed : (⟨5, 0⟩ : Round) < gate.book.current := by rw [current]; decide
  have ends := run.switch_back_of_decides live passed Roster.ofPeers_four undecided decides
  obtain ⟨kept, -⟩ := ignored _ _ _ _ _ _ _ run live passed Roster.ofPeers_four
  rw [ends, phase] at kept
  cases kept

end Quorum.Gate
