import Quorum.Proofs.Agreement.Round
import Quorum.Proofs.Gate.Run
import Quorum.Proofs.PollBook.Account

/-! What a gate records. Whether it pushes an outcome on the stream or returns it from a switch, it
records each outcome once, counts it, and hands over the block of each commit.
-/

namespace Quorum.Gate

open Conductor (surfaced)

-----------------------------------------------------------------------------------------
-- Traces of outcomes
-----------------------------------------------------------------------------------------

/-- The blocks that are handed over, each with its round. -/
def commits (effects : List Effect) : List (Candidate × Round) :=
  effects.filterMap fun
    | .commit candidate round => some (candidate, round)
    | _ => none

/-- The counts of outcomes. -/
def outcomeCounts (effects : List Effect) : List Counter :=
  effects.filterMap fun
    | .count counter _ =>
        if counter ∈ [.commits, .rejects, .nothings, .futures] then some counter else none
    | _ => none

/-- The effects are those of recording some outcomes in order, apart from other counts and from what
is sent and surfaced.
-/
structure Notes (effects : List Effect) (recorded : List Outcome) : Prop where
  commits
    : (commits effects).map (fun entry => (some entry.1, entry.2))
      = (recorded.filter fun outcome => decide (outcome.kind = .commit)).map
          fun outcome => (outcome.winner, outcome.round)
  counts : outcomeCounts effects = recorded.map fun outcome => outcomeCounter outcome.kind

namespace Notes

theorem nil : Notes [] [] :=
  ⟨rfl, rfl⟩

theorem append {first second : List Effect} {earlier later : List Outcome}
    (left : Notes first earlier) (right : Notes second later)
    : Notes (first ++ second) (earlier ++ later) := by
  constructor
  · have commits := congrArg₂ (· ++ ·) left.commits right.commits
    simpa [Gate.commits, List.filterMap_append] using commits
  · have counts := congrArg₂ (· ++ ·) left.counts right.counts
    simpa [outcomeCounts, List.filterMap_append] using counts

theorem record {outcome : Outcome} (gate : Gate)
    (winner : outcome.kind = .commit → ∃ candidate, outcome.winner = some candidate)
    : Notes (gate.record outcome).2 [outcome] := by
  unfold Gate.record
  cases kind : outcome.kind with
  | commit =>
      obtain ⟨candidate, named⟩ := winner kind
      constructor <;> simp [named, kind, Gate.commits, outcomeCounts, outcomeCounter]
  | reject => constructor <;> simp [kind, Gate.commits, outcomeCounts, outcomeCounter]
  | nothing => constructor <;> simp [kind, Gate.commits, outcomeCounts, outcomeCounter]
  | future => constructor <;> simp [kind, Gate.commits, outcomeCounts, outcomeCounter]

/-- The blocks that are handed over are those of the recorded commits. -/
theorem mem_commits {effects : List Effect} {recorded : List Outcome}
    (notes : Notes effects recorded) {candidate : Candidate} {round : Round}
    : (candidate, round) ∈ Gate.commits effects
      ↔ ∃ outcome ∈ recorded, outcome.kind = .commit ∧ outcome.winner = some candidate
          ∧ outcome.round = round := by
  have same
      : (some candidate, round) ∈ (Gate.commits effects).map (fun entry => (some entry.1, entry.2))
        ↔ (candidate, round) ∈ Gate.commits effects := by
    simp
  rw [← same, notes.commits]
  simp [and_assoc]

end Notes

/-- Effects without an outcome, a block, or a count of an outcome. -/
structure Silent (effects : List Effect) : Prop where
  surfaced : surfaced effects = []
  notes : Notes effects []

theorem silent_append {first second : List Effect} (left : Silent first) (right : Silent second)
    : Silent (first ++ second) := by
  refine ⟨?_, left.notes.append right.notes⟩
  have none := congrArg₂ (· ++ ·) left.surfaced right.surfaced
  simpa [Conductor.surfaced, List.filterMap_append] using none

theorem silent_sends (peers : List Peer) (votes : List Vote)
    : Silent (peers.map (.send · votes)) := by
  refine ⟨?_, ?_, ?_⟩ <;>
    simp [Conductor.surfaced, commits, outcomeCounts, List.filterMap_map]

theorem silent_intakeCounts (intake : Intake) : Silent (intakeCounts intake) := by
  unfold intakeCounts
  refine silent_append ?_ ?_ <;> split <;> exact ⟨rfl, rfl, rfl⟩

theorem silent_posts (settings : Settings) (round : Round) (vote : Vote) (electorate : Electorate)
    : Silent (posts settings round vote electorate) := by
  refine silent_append (silent_sends _ _) ?_
  split <;> exact ⟨rfl, rfl, rfl⟩

theorem surfaced_record (outcome : Outcome) (gate : Gate)
    : surfaced (gate.record outcome).2 = [] := by
  unfold record
  simp only
  split <;> rfl

/-- A tally that tells of an outcome surfaces that alone. -/
theorem surfaced_told (intake : Intake) (outcome : Outcome) (gate : Gate)
    : surfaced (intakeCounts intake ++ ((gate.record outcome).2 ++ [.surface outcome]))
      = [outcome] := by
  have counted := (silent_intakeCounts intake).surfaced
  have recorded := surfaced_record outcome gate
  simp only [Conductor.surfaced] at counted recorded
  simp [Conductor.surfaced, List.filterMap_append, counted, recorded]

/-- What a tally surfaces is recorded, and comes from the polls. -/
theorem Tally.records {round : Round} {votes : List Vote} {electorate : Electorate}
    {gate last : Gate} {effects : List Effect}
    (tally : Tally round votes electorate gate (last, effects))
    : gate.book.Records last.book (surfaced effects) ∧ Notes effects (surfaced effects) := by
  have grows : gate.book.Grows (gate.polled round votes electorate).1 :=
    .insert gate.book round votes (some electorate)
  rw [tally.rephased.book]
  cases tally with
  | silent _ =>
      have silent := silent_intakeCounts (gate.polled round votes electorate).2.intake
      rw [silent.surfaced]
      exact ⟨.nothing grows, silent.notes⟩
  | @told outcome found _ =>
      have brings := PollBook.brings_insert found
      have counted := silent_intakeCounts (gate.polled round votes electorate).2.intake
      rw [surfaced_told]
      refine ⟨.single (.refl _) grows brings, ?_⟩
      have recorded := Notes.record gate brings.winner
      simpa using counted.notes.append (recorded.append (⟨rfl, rfl⟩ : Notes [.surface outcome] []))

-----------------------------------------------------------------------------------------
-- Recorded outcomes of calls
-----------------------------------------------------------------------------------------

/-- The outcome that a switch finds only now. -/
def Deed.discovered (deed : Deed) : List Outcome :=
  match deed.call, deed.reply with
  | .switch round _, .switched (.ok (some outcome)) =>
      if deed.before.book.decision round = none then [outcome] else []
  | _, _ => []

/-- The outcomes that a call records: those that it pushes on the stream, and the one that a switch
finds only now.
-/
def Deed.recorded (deed : Deed) : List Outcome :=
  surfaced deed.effects ++ deed.discovered

/-- What a call records comes from the polls, and it is all that it takes note of. -/
structure Deed.Accountable (deed : Deed) : Prop where
  records : deed.before.book.Records deed.after.book deed.recorded
  notes : Notes deed.effects deed.recorded
  trimmed : deed.after.book.Trimmed

/-- A call without an outcome. -/
theorem Deed.accountable_of_silent {deed : Deed} (grows : deed.before.book.Grows deed.after.book)
    (trimmed : deed.after.book.Trimmed) (silent : Silent deed.effects)
    (undiscovered : deed.discovered = [])
    : deed.Accountable := by
  have recorded : deed.recorded = [] := by rw [Deed.recorded, silent.surfaced, undiscovered]; rfl
  refine ⟨?_, recorded ▸ silent.notes, trimmed⟩
  rw [recorded]
  exact .nothing grows

/-- A call with a tally, from a gate with grown polls. -/
theorem Deed.accountable_of_tally {deed : Deed} {round : Round} {votes : List Vote}
    {electorate : Electorate} {gate : Gate} {effects later : List Effect}
    (trimmed : gate.book.Trimmed) (before : deed.before.book.Grows gate.book)
    (tally : Tally round votes electorate gate (deed.after, effects))
    (ends : deed.effects = effects ++ later) (silent : Silent later)
    (undiscovered : deed.discovered = [])
    : deed.Accountable := by
  obtain ⟨records, notes⟩ := tally.records
  have recorded : deed.recorded = surfaced effects := by
    have none := silent.surfaced
    simp only [surfaced] at none
    simp [Deed.recorded, undiscovered, ends, surfaced, List.filterMap_append, none]
  rw [← recorded] at records notes
  refine ⟨records.after_growth before, ?_, ?_⟩
  · rw [ends]
    exact List.append_nil deed.recorded ▸ notes.append silent.notes
  · exact tally.rephased.book ▸ trimmed.insert round votes (some electorate)

/-- Votes are accountable. -/
theorem Voting.accountable {settings : Settings} {candidate : Candidate} {electorate : Electorate}
    {before after : Gate} {result : Except Fault Unit} {effects : List Effect}
    (ends : Voting settings candidate electorate before (result, after, effects))
    (trimmed : before.book.Trimmed)
    : Deed.Accountable ⟨.vote candidate electorate, before, .voted result, after, effects⟩ := by
  cases ends with
  | refused fault => exact Deed.accountable_of_silent (.refl _) trimmed ⟨rfl, .nil⟩ rfl
  | @cast vote _ _ _ _ _ _ _ tally =>
      have book := book_begun candidate.round vote electorate before
      refine Deed.accountable_of_tally ?_ ?_ tally rfl (silent_posts ..) rfl
      · exact book ▸ trimmed.advance candidate.round
      · exact book ▸ .advance before.book candidate.round

/-- Switches are accountable: an outcome is discovered if it was not stored before. -/
theorem Switching.accountable {round : Round} {peers : List Peer} {before after : Gate}
    {result : Except Fault (Option Outcome)} {effects : List Effect}
    (ends : Switching round peers before (result, after, effects))
    (trimmed : before.book.Trimmed)
    : Deed.Accountable ⟨.switch round peers, before, .switched result, after, effects⟩ := by
  have moved : before.book.Grows (before.book.advance round) := .advance before.book round
  have trimmed_moved := trimmed.advance round
  have stored := before.book.decision_advance_own round
  have evaluated {electorate : Electorate} {book : PollBook} {ruling : Option Ruling}
      (result : (before.book.advance round).evaluate round electorate = (book, ruling))
      : (before.book.advance round).Grows book ∧ book.Trimmed := by
    obtain rfl := congrArg Prod.fst result
    exact ⟨.evaluate _ round electorate, trimmed_moved.evaluate round electorate⟩
  cases ends with
  | refused fault => exact Deed.accountable_of_silent (.refl _) trimmed ⟨rfl, .nil⟩ rfl
  | @opened roster book _ _ ruling =>
      have book_after := (rephased_enter (.voting round) (before.settled round roster book)).book
      obtain ⟨grows, trimmed_after⟩ := evaluated ruling
      refine Deed.accountable_of_silent ?_ ?_ ⟨rfl, .nil⟩ rfl
      · exact book_after ▸ moved.trans grows
      · exact book_after ▸ trimmed_after
  | @replayed roster book _ _ _ ruling =>
      have book_after := (rephased_enter (.frozen round) (before.settled round roster book)).book
      obtain ⟨grows, trimmed_after⟩ := evaluated ruling
      have known : before.book.decision round ≠ none :=
        fun undecided => absurd ((PollBook.fresh_iff ruling).mpr (stored.trans undecided)) (by simp)
      refine Deed.accountable_of_silent ?_ ?_ ⟨rfl, .nil⟩ (if_neg known)
      · exact book_after ▸ moved.trans grows
      · exact book_after ▸ trimmed_after
  | @decided roster book outcome last effects _ _ ruling recorded =>
      have book_after := (rephased_record outcome (before.settled round roster book)).book
      rw [recorded] at book_after
      replace book_after : after.book = book := book_after
      obtain ⟨grows, trimmed_after⟩ := evaluated ruling
      have undecided := stored.symm.trans ((PollBook.fresh_iff ruling).mp rfl)
      have brings := PollBook.brings_evaluate trimmed_moved ruling
      obtain rfl := congrArg Prod.snd recorded
      have discovered
          : Deed.recorded ⟨.switch round peers, before, .switched (.ok (some outcome)), after,
              ((before.settled round roster book).record outcome).2⟩ = [outcome] :=
        congrArg₂ (· ++ ·) (surfaced_record outcome (before.settled round roster book))
          (if_pos undecided)
      refine ⟨?_, ?_, book_after ▸ trimmed_after⟩
      · rw [discovered, book_after]
        exact .single moved grows brings
      · rw [discovered]
        exact .record (before.settled round roster book) brings.winner

/-- Bundles are accountable. -/
theorem Receiving.accountable {settings : Settings} {votes : List Vote} {before after : Gate}
    {effects : List Effect} (ends : Receiving settings votes before (after, effects))
    (trimmed : before.book.Trimmed)
    : Deed.Accountable ⟨.receive votes, before, .done, after, effects⟩ := by
  cases ends with
  | ignored => exact Deed.accountable_of_silent (.refl _) trimmed ⟨rfl, .nil⟩ rfl
  | dropped => exact Deed.accountable_of_silent (.refl _) trimmed ⟨rfl, rfl, rfl⟩ rfl
  | answered _ _ _ _ _ => exact Deed.accountable_of_silent (.refl _) trimmed (silent_sends _ _) rfl
  | @collected round _ _ _ _ _ _ _ _ tally =>
      have book := (rephased_heard round before).book
      have silent : Silent [] := ⟨rfl, .nil⟩
      refine Deed.accountable_of_tally ?_ ?_ tally (List.append_nil _).symm silent rfl
      · exact book ▸ trimmed
      · exact book ▸ .refl before.book

/-- Each call is accountable, one case for each of its ends. -/
theorem Deed.Done.accountable {settings : Settings} {deed : Deed} (done : deed.Done settings)
    (trimmed : deed.before.book.Trimmed)
    : deed.Accountable := by
  cases done with
  | vote ends => exact ends.accountable trimmed
  | switch ends => exact ends.accountable trimmed
  | receive ends => exact ends.accountable trimmed
  | rebroadcast ends =>
      cases ends with
      | spent => exact Deed.accountable_of_silent (.refl _) trimmed ⟨rfl, .nil⟩ rfl
      | sent _ _ _ => exact Deed.accountable_of_silent (.refl _) trimmed (silent_sends _ _) rfl
  | stop before =>
      refine Deed.accountable_of_silent ?_ ?_ ⟨rfl, .nil⟩ rfl
      · exact before.book_halted ▸ .refl before.book
      · exact before.book_halted ▸ trimmed

-----------------------------------------------------------------------------------------
-- Runs
-----------------------------------------------------------------------------------------

/-- What was recorded in a run is accounted for. -/
structure Recorded (deeds : List Deed) (gate : Gate) : Prop where
  accounts : gate.book.Accounts (deeds.flatMap Deed.recorded)
  trimmed : gate.book.Trimmed
  notes : Notes (deeds.flatMap Deed.effects) (deeds.flatMap Deed.recorded)
  stored
    : ∀ deed ∈ deeds, ∀ outcome ∈ deed.recorded, outcome.Terminal →
        deed.after.book.decision outcome.round = some outcome

theorem Recorded.next {settings : Settings} {deeds : List Deed} {gate : Gate}
    (recorded : Recorded deeds gate) (call : Call)
    : Recorded (deeds ++ [call.deed settings gate]) (call.deed settings gate).after := by
  have accountable := (call.done settings gate).accountable recorded.trimmed
  constructor
  · rw [List.flatMap_append, List.flatMap_singleton]
    exact recorded.accounts.records accountable.records
  · exact accountable.trimmed
  · rw [List.flatMap_append, List.flatMap_append, List.flatMap_singleton, List.flatMap_singleton]
    exact recorded.notes.append accountable.notes
  · refine List.forall_mem_append.mpr ⟨recorded.stored, ?_⟩
    exact List.forall_mem_singleton.mpr fun outcome member => accountable.records.decision member

/-- Every run is accounted for, by induction on its calls. -/
theorem Run.recorded {settings : Settings} {window : UInt64} {deeds : List Deed} {gate : Gate}
    (run : Run settings window deeds gate)
    : Recorded deeds gate := by
  induction run with
  | start => exact ⟨.empty _, .empty window, .nil, by simp⟩
  | next _ call _ ih => exact ih.next call

/-- Each outcome is surfaced at most once. A round has at most one recorded outcome that ends it,
and before that at most one that tells of votes ahead; a recorded outcome is the stored decision.
The blocks that are handed over are those of the recorded commits in order, so that each round has
at most one, and the outcomes that are counted are the recorded ones.
-/
theorem outcomes_recorded_once {settings : Settings} {window : UInt64} {deeds : List Deed}
    {gate : Gate} (run : Run settings window deeds gate)
    : let recorded := deeds.flatMap Deed.recorded
      let effects := deeds.flatMap Deed.effects
      recorded.Pairwise (fun earlier later => earlier.round = later.round →
        earlier.kind = .future ∧ later.Terminal)
      ∧ (∀ deed ∈ deeds, ∀ outcome ∈ deed.recorded, outcome.Terminal →
          deed.after.book.decision outcome.round = some outcome)
      ∧ (commits effects).map (fun entry => (some entry.1, entry.2))
        = (recorded.filter fun outcome => decide (outcome.kind = .commit)).map
            (fun outcome => (outcome.winner, outcome.round))
      ∧ ((commits effects).map Prod.snd).Nodup
      ∧ outcomeCounts effects = recorded.map fun outcome => outcomeCounter outcome.kind := by
  intro recorded effects
  have account := run.recorded
  refine ⟨account.accounts.once, account.stored, account.notes.commits, ?_, account.notes.counts⟩
  have rounds
      : (commits effects).map Prod.snd
        = (recorded.filter fun outcome => decide (outcome.kind = .commit)).map Outcome.round := by
    have rounds := congrArg (List.map Prod.snd) account.notes.commits
    rwa [List.map_map, List.map_map] at rounds
  rw [rounds]
  refine List.pairwise_map.mpr (List.Pairwise.imp_of_mem ?_ (account.accounts.once.filter _))
  intro earlier later member _ precedes same
  have commit : earlier.kind = .commit := of_decide_eq_true (List.mem_filter.mp member).2
  rw [(precedes same).1] at commit
  cases commit

/-- A gate hears of votes ahead, comes to their round, and commits there. -/
theorem outcomes_recorded_once_among_four
    : ∃ deeds gate,
        Run (.numbered 1) 10 deeds gate
        ∧ (deeds.flatMap Deed.recorded).map (fun outcome => (outcome.kind, outcome.round))
          = [(.future, ⟨5, 0⟩), (.commit, ⟨5, 0⟩)]
        ∧ ((commits (deeds.flatMap Deed.effects)).map Prod.snd).Nodup := by
  have opened := (Run.start : Run (.numbered 1) 10 [] _).next (.vote (.empty ⟨1, 0⟩) ⟨.four, none⟩)
    trivial
  have told := opened.next (.receive [.numbered 2 (.numbered 1)]) trivial
  have voted := told.next (.vote (.numbered 1) ⟨.four, none⟩) trivial
  have decided := voted.next (.receive [.numbered 3 (.numbered 1)]) trivial
  obtain ⟨-, -, -, once, -⟩ := outcomes_recorded_once decided
  exact ⟨_, _, decided, by decide, once⟩

end Quorum.Gate
