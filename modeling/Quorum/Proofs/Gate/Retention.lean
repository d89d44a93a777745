import Quorum.Proofs.Gate.Phases
import Quorum.Proofs.Gate.Refusals

/-! What a gate retains. Its polls and its own votes are those of rounds near the current one,
whichever way it is told to move, and votes for other rounds change nothing.
-/

namespace Quorum.Gate

section

variable {settings : Settings} {window : UInt64} {deeds : List Deed} {gate : Gate}

-----------------------------------------------------------------------------------------
-- Calls as actions on the polls
-----------------------------------------------------------------------------------------

/-- All that a call does to the polls are actions on a poll book. -/
theorem Deed.Done.history {deed : Deed} (done : deed.Done settings)
    : ∃ history, deed.after.book = deed.before.book.after history := by
  cases done with
  | @vote candidate electorate before _ _ _ ends =>
      cases ends with
      | refused _ => exact ⟨[], rfl⟩
      | @cast vote _ _ _ _ _ _ _ tally =>
          refine ⟨[.advance candidate.round, .insert candidate.round [vote] electorate], ?_⟩
          simp only [tally.rephased.book, polled, book_begun]
          rfl
  | @switch round _ _ _ _ _ ends =>
      rcases ends.settles with ⟨rfl, -⟩ | ⟨roster, _, book, _, -, -, evaluated, same⟩
      · exact ⟨[], rfl⟩
      · refine ⟨[.advance round, .evaluate round ⟨roster, none⟩], ?_⟩
        obtain rfl := congrArg Prod.fst evaluated
        exact same.book
  | @receive votes before _ _ ends =>
      cases ends with
      | ignored | dropped | answered _ _ _ _ _ => exact ⟨[], rfl⟩
      | @collected round electorate _ _ _ _ _ _ _ tally =>
          refine ⟨[.insert round (admitted electorate votes) electorate], ?_⟩
          simp only [tally.rephased.book, polled, (rephased_heard round before).book]
          rfl
  | rebroadcast ends =>
      cases ends with
      | spent | sent _ _ _ => exact ⟨[], rfl⟩
  | stop before => exact ⟨[], before.book_halted⟩

theorem Deed.Done.grows {deed : Deed} (done : deed.Done settings)
    : deed.before.book.Grows deed.after.book := by
  obtain ⟨history, same⟩ := done.history
  rw [same]
  exact .after _ history

/-- The polls of a gate are an empty book after some actions; by induction on the calls. -/
theorem Run.history (run : Run settings window deeds gate)
    : ∃ history, gate.book = (PollBook.empty window).after history := by
  induction run with
  | start => exact ⟨[], rfl⟩
  | next _ call _ ih =>
      obtain ⟨earlier, same⟩ := ih
      obtain ⟨later, same'⟩ := (call.done settings _).history
      refine ⟨earlier ++ later, same'.trans ?_⟩
      rw [PollBook.after_append, ← same]
      rfl

theorem Run.confined (run : Run settings window deeds gate) : gate.book.Confined := by
  obtain ⟨history, same⟩ := run.history
  rw [same]
  exact (PollBook.confined_empty window).after history

theorem Run.window_eq (run : Run settings window deeds gate) : gate.book.window = window := by
  obtain ⟨history, same⟩ := run.history
  rw [same]
  exact (PollBook.Grows.after (.empty window) history).window

-----------------------------------------------------------------------------------------
-- Own votes
-----------------------------------------------------------------------------------------

/-- No own vote is kept of a round behind the window. -/
def Recent (gate : Gate) : Prop :=
  ∀ entry ∈ gate.ownVotes, ¬ gate.book.Expired entry.1

theorem Recent.congr {later : Gate} (recent : gate.Recent)
    (window : later.book.window = gate.book.window)
    (current : later.book.current = gate.book.current) (own : later.ownVotes = gate.ownVotes)
    : later.Recent := by
  intro entry member
  rw [PollBook.expired_congr window current]
  exact recent entry (own ▸ member)

theorem Recent.rephased {later : Gate} (recent : gate.Recent) (phase : Rephased gate later)
    : later.Recent :=
  recent.congr (congrArg PollBook.window phase.book) (congrArg PollBook.current phase.book)
    phase.ownVotes

/-- A gate that moves ahead drops its own votes up to the new window, and one that is told to move
back has none to drop.
-/
theorem Recent.moveTo (recent : gate.Recent) (round : Round) (electorate : Electorate)
    : (gate.moveTo round electorate).Recent := by
  intro entry member
  rw [ownVotes_moveTo] at member
  obtain ⟨earlier, above⟩ := List.mem_filter.mp member
  rw [book_moveTo]
  by_cases behind : round ≤ gate.book.current
  · rw [PollBook.advance_of_le behind]
    exact recent entry earlier
  · rw [PollBook.not_expired_iff, PollBook.current_advance, if_neg behind]
    exact of_decide_eq_true above

theorem Recent.begun (recent : gate.Recent) {round : Round}
    (reached : ¬ round < gate.book.current) (vote : Vote) (electorate : Electorate)
    : (gate.begun round vote electorate).Recent := by
  have kept : Recent { gate with ownVotes := gate.ownVotes ++ [(round, vote)] } := by
    refine List.forall_mem_append.mpr ⟨recent, List.forall_mem_singleton.mpr ?_⟩
    exact PollBook.not_expired_of_le (Round.not_lt.mp reached)
  exact (kept.moveTo round electorate).rephased (rephased_enter _ _)

theorem Recent.tally {round : Round} {votes : List Vote} {electorate : Electorate}
    {last : Gate} {effects : List Effect} (recent : gate.Recent)
    (tally : Tally round votes electorate gate (last, effects))
    : last.Recent := by
  have polled : Recent { gate with book := (gate.polled round votes electorate).1 } :=
    recent.congr (PollBook.Grows.insert ..).window (PollBook.current_insert ..) rfl
  exact polled.rephased tally.rephased

theorem Recent.deed {deed : Deed} (recent : deed.before.Recent) (done : deed.Done settings)
    : deed.after.Recent := by
  cases done with
  | vote ends =>
      cases ends with
      | refused _ => exact recent
      | cast _ reached _ _ _ tally => exact (recent.begun reached _ _).tally tally
  | @switch round _ gate _ _ _ ends =>
      rcases ends.settles with ⟨rfl, -⟩ | ⟨roster, _, book, _, -, -, evaluated, same⟩
      · exact recent
      · have moved := recent.moveTo round ⟨roster, none⟩
        have settled : (gate.settled round roster book).Recent := by
          refine moved.congr ?_ (current_settled evaluated) rfl
          obtain rfl := congrArg Prod.fst evaluated
          rw [book_moveTo]
          exact (PollBook.Grows.evaluate ..).window
        exact settled.rephased same
  | receive ends =>
      cases ends with
      | ignored | dropped | answered _ _ _ _ _ => exact recent
      | collected _ _ _ _ _ tally => exact (recent.rephased (rephased_heard _ _)).tally tally
  | rebroadcast ends =>
      cases ends with
      | spent | sent _ _ _ => exact recent
  | stop gate =>
      have same := gate.book_halted
      exact recent.congr (congrArg PollBook.window same) (congrArg PollBook.current same)
        gate.ownVotes_halted

/-- By induction on the calls. -/
theorem Run.recent (run : Run settings window deeds gate) : gate.Recent := by
  induction run with
  | start => simp [Recent, initial]
  | next _ call _ ih => exact Recent.deed ih (call.done settings _)

-----------------------------------------------------------------------------------------
-- Votes out of the window
-----------------------------------------------------------------------------------------

/-- A bundle with a vote out of the window leaves a gate as it is: votes that come too late are those
of a closed round, and at most answered, and votes too far ahead are not taken in.
-/
theorem Run.receive_of_not_admits (run : Run settings window deeds gate) {votes : List Vote}
    {vote : Vote} (member : vote ∈ votes) (outside : ¬ gate.book.Admits vote.round)
    : ((receive settings votes).run gate).2.1 = gate := by
  by_cases distant : gate.book.Distant vote.round
  · have useless : Useless settings votes [gate] :=
      .distant member (List.forall_mem_singleton.mpr distant)
    exact (useless.receive run.poised).1
  · have expired : gate.book.Expired vote.round := by
      by_contra late
      exact outside ⟨late, distant⟩
    have ends := receiving settings votes gate
    generalize ((receive settings votes).run gate).2 = ending at ends ⊢
    cases ends with
    | ignored | dropped | answered _ _ _ _ _ => rfl
    | collected _ sound _ active _ _ =>
        obtain ⟨-, ofRound⟩ := Bundle.round_eq_ok.mp sound
        exact absurd (.inl (ofRound vote member ▸ expired)) active

end

/-- Whatever was done to a gate, the rounds that it tracks are near its current one, and its own votes
are of no rounds below these. However far it moves on, it drops the rounds below a floor, and just
these count as closed without a decision; an insertion starts to track its round exactly if that is
near, and otherwise does nothing. So a bundle with a vote that is not near leaves the gate as it is.
-/
theorem retention_window {settings : Settings} {window : UInt64} {deeds : List Deed} {gate : Gate}
    (run : Run settings window deeds gate)
    : (∀ round, gate.book.Tracks round → round.Near window gate.book.current)
      ∧ (∀ entry ∈ gate.ownVotes,
          Word.saturatingSub gate.book.current.height window ≤ entry.1.height)
      ∧ (∀ next,
          let later := gate.book.advance next
          let floor := Word.saturatingSub later.current.height window
          (∀ round, later.Tracks round ↔ gate.book.Tracks round ∧ floor ≤ round.height)
          ∧ (∀ round, later.Closed round ↔ round.height < floor ∨ (later.poll round).Frozen)
          ∧ ∀ round votes electorate,
              (¬ round.Near window later.current →
                later.insert round votes electorate = (later, ⟨.none, none⟩))
              ∧ ∀ other, (later.insert round votes electorate).1.Tracks other
                  ↔ later.Tracks other ∨ other = round ∧ round.Near window later.current)
      ∧ ∀ votes, ∀ vote ∈ votes, ¬ vote.round.Near window gate.book.current →
          ((Call.receive votes).deed settings gate).after = gate := by
  have confined := run.confined
  have same := run.window_eq
  refine ⟨?_, ?_, ?_, ?_⟩
  · intro round tracked
    have admits := PollBook.admits_iff.mp (confined.admits tracked)
    rwa [same] at admits
  · intro entry member
    have above := PollBook.not_expired_iff.mp (run.recent entry member)
    rwa [same] at above
  · intro next later floor
    have same' : later.window = window := (PollBook.Grows.advance gate.book next).window.trans same
    have kept_iff (round : Round) : ¬ later.Expired round ↔ floor ≤ round.height := by
      rw [PollBook.not_expired_iff, same']
    have admits_iff (round : Round) : later.Admits round ↔ round.Near window later.current := by
      rw [PollBook.admits_iff, same']
    refine ⟨fun round => ?_, fun round => ?_, fun round votes electorate => ⟨?_, fun other => ?_⟩⟩
    · rw [← kept_iff]
      exact confined.trimmed.tracks_advance_iff next
    · rw [← UInt64.not_le, ← kept_iff, not_not]
      exact .rfl
    · intro far
      exact PollBook.insert_of_not_admits (mt (admits_iff round).mp far) votes electorate
    · rw [← admits_iff]
      exact PollBook.tracks_insert_iff votes electorate other
  · intro votes vote member far
    have outside : ¬ gate.book.Admits vote.round := by
      rwa [PollBook.admits_iff, same]
    simpa [Call.deed, Call.activity] using run.receive_of_not_admits member outside

/-- Two heights are retained. A gate votes, hears a vote two heights ahead, and goes there. It still
has its first round then, drops it one height later, and takes in no vote three heights ahead.
-/
theorem retention_window_of_two
    : ∃ deeds gate,
        Run (.numbered 1) 2 deeds gate
        ∧ (gate.book.current = ⟨7, 0⟩ ∧ gate.book.polls.map Poll.round = [⟨5, 0⟩, ⟨7, 0⟩]
          ∧ gate.ownVotes.map Prod.fst = [⟨5, 0⟩])
        ∧ Round.Near ⟨5, 0⟩ 2 gate.book.current
        ∧ ¬ (gate.book.advance ⟨8, 0⟩).Tracks ⟨5, 0⟩
        ∧ ((Call.receive [.numbered 2 (.empty ⟨10, 0⟩)]).deed (.numbered 1) gate).after = gate := by
  have voted := (Run.start : Run (.numbered 1) 2 [] _).next (.vote (.numbered 1) ⟨.four, none⟩)
    trivial
  have heard := voted.next (.receive [.numbered 2 (.empty ⟨7, 0⟩)]) trivial
  have moved := heard.next (.switch ⟨7, 0⟩ Roster.four.peers) trivial
  rw [Call.deed_switch Roster.ofPeers_four] at moved
  obtain ⟨tracked, -, advanced, received⟩ := retention_window moved
  refine ⟨_, _, moved, by decide, tracked ⟨5, 0⟩ (by decide), ?_, ?_⟩
  · have dropped := ((advanced ⟨8, 0⟩).1 ⟨5, 0⟩).not
    exact dropped.mpr (by decide)
  · exact received _ _ (List.mem_singleton_self _) (by decide)

end Quorum.Gate
