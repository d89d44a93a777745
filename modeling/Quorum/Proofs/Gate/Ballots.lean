import Quorum.Proofs.Agreement.Round
import Quorum.Proofs.Gate.Run
import Quorum.Proofs.PollBook.Growth

/-! Ballots: the own votes that a gate casts and sends. A gate votes once in a round although it
forgets its own votes in time. It does not vote behind its current round, and keeps its own vote of
that round, so that it votes in later and later rounds.
-/

namespace Quorum.Gate

-----------------------------------------------------------------------------------------
-- Memory of own votes
-----------------------------------------------------------------------------------------

/-- The gate does not vote in the round again: it has moved past it, or is there and keeps a vote of
its own.
-/
structure Remembers (gate : Gate) (round : Round) : Prop where
  reached : round ≤ gate.book.current
  kept : round = gate.book.current → ∃ entry ∈ gate.ownVotes, entry.1 = round

theorem Remembers.congr {gate later : Gate} {round : Round} (remembers : gate.Remembers round)
    (current : later.book.current = gate.book.current) (own : later.ownVotes = gate.ownVotes)
    : later.Remembers round := by
  constructor
  · rw [current]
    exact remembers.reached
  · rw [current, own]
    exact remembers.kept

theorem Remembers.rephased {gate later : Gate} {round : Round} (remembers : gate.Remembers round)
    (phase : Rephased gate later)
    : later.Remembers round :=
  remembers.congr (congrArg PollBook.current phase.book) phase.ownVotes

/-- Own votes are not forgotten in the round that a gate moves to, nor in later ones. -/
theorem mem_forget {gate : Gate} {round : Round} {entry : Round × Vote}
    (member : entry ∈ gate.ownVotes) (recent : round ≤ entry.1)
    : entry ∈ (gate.forget round).ownVotes := by
  refine List.mem_filter.mpr ⟨member, decide_eq_true ?_⟩
  have height := Round.height_le recent
  rw [UInt64.le_iff_toNat_le, Word.toNat_saturatingSub]
  omega

theorem Remembers.moveTo {gate : Gate} {voted : Round} (remembers : gate.Remembers voted)
    (round : Round) (electorate : Electorate)
    : (gate.moveTo round electorate).Remembers voted := by
  constructor
  · rw [book_moveTo]
    exact Round.le_trans remembers.reached (PollBook.Grows.advance gate.book round).current
  · rw [book_moveTo, ownVotes_moveTo, PollBook.current_advance]
    intro latest
    split at latest
    · next behind =>
        obtain ⟨entry, member, own⟩ := remembers.kept latest
        have recent : round ≤ entry.1 := by rwa [own, latest]
        exact ⟨entry, mem_forget member recent, own⟩
    · next ahead => exact absurd (latest ▸ remembers.reached) ahead

theorem Remembers.tally {round voted : Round} {votes : List Vote} {electorate : Electorate}
    {gate last : Gate} {effects : List Effect} (remembers : gate.Remembers voted)
    (tally : Tally round votes electorate gate (last, effects))
    : last.Remembers voted := by
  have polled
      : Remembers { gate with book := (gate.polled round votes electorate).1 } voted :=
    remembers.congr (PollBook.current_insert ..) rfl
  exact polled.rephased tally.rephased

theorem Remembers.begun {gate : Gate} {voted : Round} (remembers : gate.Remembers voted)
    (round : Round) (vote : Vote) (electorate : Electorate)
    : (gate.begun round vote electorate).Remembers voted := by
  have kept : Remembers { gate with ownVotes := gate.ownVotes ++ [(round, vote)] } voted := by
    refine ⟨remembers.reached, fun latest => ?_⟩
    obtain ⟨entry, member, own⟩ := remembers.kept latest
    exact ⟨entry, List.mem_append_left _ member, own⟩
  exact (kept.moveTo round electorate).rephased (rephased_enter _ _)

theorem mem_begun (round : Round) (vote : Vote) (electorate : Electorate) (gate : Gate)
    : (round, vote) ∈ (gate.begun round vote electorate).ownVotes := by
  rw [begun, (rephased_enter _ _).ownVotes, ownVotes_moveTo]
  refine mem_forget ?_ (Round.le_refl round)
  exact List.mem_append_right _ (List.mem_singleton_self _)

/-- A vote that is cast is remembered. -/
theorem remembers_begun (round : Round) (vote : Vote) (electorate : Electorate) (gate : Gate)
    : (gate.begun round vote electorate).Remembers round := by
  constructor
  · rw [book_begun]
    exact Round.not_lt.mp (PollBook.not_current_lt_advance gate.book round)
  · exact fun _ => ⟨(round, vote), mem_begun round vote electorate gate, rfl⟩

-----------------------------------------------------------------------------------------
-- Votes of calls
-----------------------------------------------------------------------------------------

/-- The round in which a call voted. -/
def Deed.votedRound? (deed : Deed) : Option Round :=
  match deed.call, deed.reply with
  | .vote candidate _, .voted (.ok ()) => some candidate.round
  | _, _ => none

/-- The call cast a signed vote in the round. -/
def Deed.Casts (settings : Settings) (deed : Deed) (round : Round) (vote : Vote) : Prop :=
  deed.votedRound? = some round
  ∧ ∃ candidate electorate,
      deed.call = .vote candidate electorate ∧ settings.credentials.sign candidate = .ok vote

/-- The bundles that are sent. -/
def bundles (effects : List Effect) : List (List Vote) :=
  effects.filterMap fun
    | .send _ votes => some votes
    | _ => none

/-- The bundles that a vote or a rebroadcast sends, with the round they are sent for. -/
def Deed.broadcasts (deed : Deed) : List (Round × List Vote) :=
  match deed.call with
  | .vote candidate _ => (bundles deed.effects).map (candidate.round, ·)
  | .rebroadcast task => (bundles deed.effects).map (task.round, ·)
  | _ => []

theorem mem_bundles {effects : List Effect} {votes : List Vote}
    : votes ∈ bundles effects ↔ ∃ peer, .send peer votes ∈ effects := by
  unfold bundles
  rw [List.mem_filterMap]
  constructor
  · rintro ⟨effect, member, sent⟩
    split at sent <;> cases sent
    exact ⟨_, member⟩
  · rintro ⟨peer, member⟩
    exact ⟨_, member, rfl⟩

theorem bundles_of_sends {peers : List Peer} {votes bundle : List Vote}
    (sent : bundle ∈ bundles (peers.map (.send · votes)))
    : bundle = votes := by
  obtain ⟨peer, member⟩ := mem_bundles.mp sent
  obtain ⟨_, -, same⟩ := List.mem_map.mp member
  cases same
  rfl

/-- What a vote sends, and asks to be sent again, is the vote. -/
theorem eq_of_mem_posts {settings : Settings} {round : Round} {vote : Vote}
    {electorate : Electorate} {effect : Effect}
    (member : effect ∈ posts settings round vote electorate)
    : (∃ peer, effect = .send peer [vote])
      ∨ ∃ peers, effect = .schedule ⟨round, vote, peers⟩ := by
  unfold posts at member
  rcases List.mem_append.mp member with sent | scheduled
  · obtain ⟨peer, -, same⟩ := List.mem_map.mp sent
    exact .inl ⟨peer, same.symm⟩
  · split at scheduled
    · exact .inr ⟨_, List.mem_singleton.mp scheduled⟩
    · cases scheduled

/-- A switch loses no memory, since it keeps the own vote of the round that stays the current one.
-/
theorem Remembers.switch {round voted : Round} {peers : List Peer} {before after : Gate}
    {result : Except Fault (Option Outcome)} {effects : List Effect}
    (remembers : before.Remembers voted)
    (ends : Switching round peers before (result, after, effects))
    : after.Remembers voted := by
  rcases ends.settles with ⟨rfl, -⟩ | ⟨roster, _, book, _, -, -, evaluated, phase⟩
  · exact remembers
  · have moved := remembers.moveTo round ⟨roster, none⟩
    exact (moved.congr (current_settled evaluated) rfl).rephased phase

/-- No call loses the memory of a vote. -/
theorem Remembers.deed {settings : Settings} {deed : Deed} (done : deed.Done settings)
    {voted : Round} (remembers : deed.before.Remembers voted)
    : deed.after.Remembers voted := by
  cases done with
  | vote ends =>
      cases ends with
      | refused _ => exact remembers
      | cast _ _ _ _ _ tally => exact (remembers.begun _ _ _).tally tally
  | switch ends => exact remembers.switch ends
  | receive ends =>
      cases ends with
      | ignored => exact remembers
      | dropped => exact remembers
      | answered _ _ _ _ _ => exact remembers
      | collected _ _ _ _ _ tally => exact (remembers.rephased (rephased_heard _ _)).tally tally
  | rebroadcast ends =>
      cases ends with
      | spent => exact remembers
      | sent _ _ _ => exact remembers
  | stop before =>
      exact remembers.congr (congrArg PollBook.current before.book_halted) before.ownVotes_halted

/-- A call that votes does so in a later round than all that are remembered. -/
theorem Remembers.lt {settings : Settings} {deed : Deed} (done : deed.Done settings)
    {voted round : Round} (remembers : deed.before.Remembers voted)
    (votes : deed.votedRound? = some round)
    : voted < round := by
  cases done with
  | vote ends =>
      cases ends with
      | refused _ => cases votes
      | cast _ reached _ _ new _ =>
          cases votes
          have reached := Round.not_lt.mp reached
          refine Round.lt_of_le_of_ne (Round.le_trans remembers.reached reached) ?_
          rintro rfl
          -- The round of the vote is the current one, whose own vote is kept.
          have latest := Round.le_antisymm remembers.reached reached
          obtain ⟨entry, member, own⟩ := remembers.kept latest
          exact new entry member own
  | switch _ | receive _ | rebroadcast _ | stop _ => cases votes

theorem remembers_of_voted {settings : Settings} {deed : Deed} (done : deed.Done settings)
    {round : Round} (votes : deed.votedRound? = some round)
    : deed.after.Remembers round := by
  cases done with
  | vote ends =>
      cases ends with
      | refused _ => cases votes
      | cast _ _ _ _ _ tally =>
          cases votes
          exact (remembers_begun _ _ _ _).tally tally
  | switch _ | receive _ | rebroadcast _ | stop _ => cases votes

-----------------------------------------------------------------------------------------
-- What votes and rebroadcasts send
-----------------------------------------------------------------------------------------

/-- A rebroadcast is asked for by the call that cast the vote. -/
theorem casts_of_schedule {settings : Settings} {deed : Deed} (done : deed.Done settings)
    {task : Rebroadcast} (scheduled : .schedule task ∈ deed.effects)
    : deed.Casts settings task.round task.vote := by
  cases done with
  | @vote candidate electorate _ _ _ _ ends =>
      cases ends with
      | refused _ => cases scheduled
      | cast _ _ _ signed _ tally =>
          rcases List.mem_append.mp scheduled with early | posted
          · exact (tally.inward _ early).elim
          · rcases eq_of_mem_posts posted with ⟨_, sent⟩ | ⟨_, asked⟩
            · cases sent
            · cases asked
              exact ⟨rfl, candidate, electorate, rfl, signed⟩
  | switch ends => exact (ends.inward _ scheduled).elim
  | receive ends =>
      cases ends with
      | ignored => cases scheduled
      | dropped => simp at scheduled
      | answered _ _ _ _ _ => simp at scheduled
      | collected _ _ _ _ _ tally => exact (tally.inward _ scheduled).elim
  | rebroadcast ends =>
      cases ends with
      | spent => cases scheduled
      | sent _ _ _ => simp at scheduled
  | stop _ => cases scheduled

/-- A vote in a round is a signed one. -/
theorem exists_casts {settings : Settings} {deed : Deed} (done : deed.Done settings) {round : Round}
    (votes : deed.votedRound? = some round)
    : ∃ vote, deed.Casts settings round vote := by
  cases done with
  | @vote candidate electorate _ _ _ _ ends =>
      cases ends with
      | refused _ => cases votes
      | cast _ _ _ signed _ _ => exact ⟨_, votes, candidate, electorate, rfl, signed⟩
  | switch _ | receive _ | rebroadcast _ | stop _ => cases votes

/-- A vote sends the vote that it casts, and a rebroadcast the one that it was asked to. -/
theorem mem_broadcasts {settings : Settings} {deed : Deed} (done : deed.Done settings)
    {round : Round} {bundle : List Vote} (sent : (round, bundle) ∈ deed.broadcasts)
    : (∃ vote, deed.Casts settings round vote ∧ bundle = [vote])
      ∨ ∃ task, deed.call = .rebroadcast task ∧ round = task.round ∧ bundle = [task.vote] := by
  cases done with
  | @vote candidate electorate _ _ _ _ ends =>
      obtain ⟨_, bundled, same⟩ := List.mem_map.mp sent
      cases same
      obtain ⟨peer, member⟩ := mem_bundles.mp bundled
      cases ends with
      | refused _ => cases member
      | cast _ _ _ signed _ tally =>
          rcases List.mem_append.mp member with early | posted
          · exact (tally.inward _ early).elim
          · rcases eq_of_mem_posts posted with ⟨_, posted⟩ | ⟨_, asked⟩
            · cases posted
              exact .inl ⟨_, ⟨rfl, candidate, electorate, rfl, signed⟩, rfl⟩
            · cases asked
  | @rebroadcast task _ _ _ _ ends =>
      obtain ⟨_, bundled, same⟩ := List.mem_map.mp sent
      cases same
      cases ends with
      | spent => cases bundled
      | sent _ _ _ => exact .inr ⟨task, rfl, rfl, bundles_of_sends bundled⟩
  | switch _ | receive _ | stop _ => cases sent

theorem Deed.Casts.unique {settings : Settings} {deed : Deed} {round : Round} {vote other : Vote}
    (casts : deed.Casts settings round vote) (casts' : deed.Casts settings round other)
    : vote = other := by
  obtain ⟨-, candidate, electorate, call, signed⟩ := casts
  obtain ⟨-, _, _, call', signed'⟩ := casts'
  cases call.symm.trans call'
  exact Except.ok.inj (signed.symm.trans signed')

-----------------------------------------------------------------------------------------
-- Runs
-----------------------------------------------------------------------------------------

/-- All votes are remembered, and each is cast in a later round than those before it; by induction
on the calls.
-/
theorem Run.votedRounds {settings : Settings} {window : UInt64} {deeds : List Deed} {gate : Gate}
    (run : Run settings window deeds gate)
    : (deeds.filterMap Deed.votedRound?).Pairwise (· < ·)
      ∧ ∀ round ∈ deeds.filterMap Deed.votedRound?, gate.Remembers round := by
  induction run with
  | start => simp
  | @next deeds gate _ call _ ih =>
      obtain ⟨ascending, remembered⟩ := ih
      have done := call.done settings gate
      have kept := fun round member => (remembered round member).deed done
      rw [List.filterMap_append, List.pairwise_append, List.forall_mem_append]
      cases votes : (call.deed settings gate).votedRound? with
      | none => simpa [votes, ascending] using kept
      | some round =>
          have later := fun voted member => (remembered voted member).lt done votes
          rw [List.filterMap_cons_some votes, List.filterMap_nil, List.forall_mem_singleton]
          refine ⟨⟨ascending, List.pairwise_singleton _ _, ?_⟩, kept, remembers_of_voted done votes⟩
          intro voted member last own
          exact List.mem_singleton.mp own ▸ later voted member

/-- What is sent for a round was cast in it. -/
theorem Run.exists_casts_of_broadcast {settings : Settings} {window : UInt64} {deeds : List Deed}
    {gate : Gate} (run : Run settings window deeds gate) {deed : Deed} (member : deed ∈ deeds)
    {round : Round} {bundle : List Vote} (sent : (round, bundle) ∈ deed.broadcasts)
    : ∃ voting ∈ deeds, ∃ vote, voting.Casts settings round vote ∧ bundle = [vote] := by
  rcases mem_broadcasts (run.done deed member) sent with ⟨vote, casts, rfl⟩ | ⟨task, call, rfl, rfl⟩
  · exact ⟨deed, member, vote, casts, rfl⟩
  · obtain ⟨asking, asked, scheduled⟩ := call ▸ run.due deed member
    have casts := casts_of_schedule (run.done asking asked) scheduled
    exact ⟨asking, asked, task.vote, casts, rfl⟩

/-- In all of a run only one vote is cast in a round. -/
theorem Run.casts_unique {settings : Settings} {window : UInt64} {deeds : List Deed} {gate : Gate}
    (run : Run settings window deeds gate) {round : Round} {first second : Deed}
    (member : first ∈ deeds) (member' : second ∈ deeds)
    : ∀ vote other,
        first.Casts settings round vote → second.Casts settings round other → vote = other := by
  have ascending := List.pairwise_filterMap.mp run.votedRounds.1
  refine List.Pairwise.forall_of_forall_of_flip
    (R := fun first second => ∀ vote other,
      Deed.Casts settings first round vote → Deed.Casts settings second round other → vote = other)
    ?_ (ascending.imp ?_) (ascending.imp ?_) member member'
  · intro deed _ vote other casts casts'
    exact casts.unique casts'
  · intro earlier later before vote other casts casts'
    exact absurd (before round casts.1 round casts'.1) (Round.lt_irrefl round)
  · intro earlier later before vote other casts casts'
    exact absurd (before round casts'.1 round casts.1) (Round.lt_irrefl round)

/-- A gate votes at most once in a round: the rounds of its votes strictly increase. All that a vote
and its rebroadcasts send for a round is the one vote that was signed and cast in it.
-/
theorem votes_ascending {settings : Settings} {window : UInt64} {deeds : List Deed} {gate : Gate}
    (run : Run settings window deeds gate)
    : (deeds.filterMap Deed.votedRound?).Pairwise (· < ·)
      ∧ (∀ voting ∈ deeds, ∀ round, voting.votedRound? = some round →
          ∃ vote, voting.Casts settings round vote
            ∧ ∀ deed ∈ deeds, ∀ bundle, (round, bundle) ∈ deed.broadcasts → bundle = [vote])
      ∧ ∀ deed ∈ deeds, ∀ broadcast ∈ deed.broadcasts,
          ∃ voting ∈ deeds, voting.votedRound? = some broadcast.1 := by
  refine ⟨run.votedRounds.1, ?_, ?_⟩
  · intro voting member round votes
    obtain ⟨vote, casts⟩ := exists_casts (run.done voting member) votes
    refine ⟨vote, casts, fun deed sending bundle sent => ?_⟩
    obtain ⟨other, member', vote', casts', rfl⟩ := run.exists_casts_of_broadcast sending sent
    rw [run.casts_unique member' member vote' vote casts' casts]
  · rintro deed member ⟨round, bundle⟩ sent
    obtain ⟨voting, member', vote, casts, -⟩ := run.exists_casts_of_broadcast member sent
    exact ⟨voting, member', casts.1⟩

/-- A gate votes, is reminded of its vote, and then votes in the retry. -/
theorem votes_ascending_with_reminder
    : ∃ deeds gate,
        Run { Settings.numbered 1 with rebroadcasts := 1 } 10 deeds gate
        ∧ (deeds.filterMap Deed.votedRound? = [⟨5, 0⟩, ⟨5, 1⟩]
          ∧ (deeds.flatMap Deed.broadcasts).map Prod.fst
            = [⟨5, 0⟩, ⟨5, 0⟩, ⟨5, 0⟩, ⟨5, 0⟩, ⟨5, 0⟩, ⟨5, 0⟩, ⟨5, 1⟩, ⟨5, 1⟩, ⟨5, 1⟩])
        ∧ (deeds.filterMap Deed.votedRound?).Pairwise (· < ·) := by
  have voted := (Run.start : Run { Settings.numbered 1 with rebroadcasts := 1 } 10 [] _).next
    (.vote (.numbered 1) ⟨.four, none⟩) trivial
  have reminded := voted.next
    (.rebroadcast ⟨⟨5, 0⟩, .numbered 1 (.numbered 1), Roster.four.peers.tail⟩)
    ⟨_, List.mem_append_right _ (List.mem_singleton_self _), List.mem_of_getElem? (i := 3) rfl⟩
  have again := reminded.next (.vote (.empty ⟨5, 1⟩) ⟨.four, none⟩) trivial
  exact ⟨_, _, again, by decide, (votes_ascending again).1⟩

end Quorum.Gate
