import Quorum.Proofs.Conductor.Journey
import Quorum.Proofs.Gate.Ballots
import Quorum.Proofs.Gate.Retention

/-! The part that a conductor takes in its rounds. It votes in each round that it enters, under the
roster that it began with, unless the round is decided by then or the vote cannot be signed.
-/

namespace Quorum

namespace Gate

variable {settings : Settings} {window : UInt64} {deeds : List Deed} {deed : Deed} {gate : Gate}
  {candidate : Candidate} {electorate : Electorate}

-----------------------------------------------------------------------------------------
-- Own votes
-----------------------------------------------------------------------------------------

/-- An own vote is kept from before, or was cast just now. -/
theorem Deed.Done.mem_ownVotes (done : deed.Done settings) {entry : Round × Vote}
    (member : entry ∈ deed.after.ownVotes)
    : entry ∈ deed.before.ownVotes ∨ deed.votedRound? = some entry.1 := by
  cases done with
  | vote ends =>
      cases ends with
      | refused _ => exact .inl member
      | cast _ _ _ _ _ tally =>
          rw [tally.rephased.ownVotes] at member
          have begun := (rephased_enter _ _).ownVotes ▸ member
          rw [ownVotes_moveTo] at begun
          rcases List.mem_append.mp (List.mem_of_mem_filter begun) with kept | own
          · exact .inl kept
          · obtain rfl := List.mem_singleton.mp own
            exact .inr rfl
  | switch ends =>
      rcases ends.settles with ⟨rfl, -⟩ | ⟨roster, _, book, _, -, -, -, same⟩
      · exact .inl member
      · have moved := same.ownVotes ▸ member
        rw [settled, ownVotes_moveTo] at moved
        exact .inl (List.mem_of_mem_filter moved)
  | receive ends =>
      cases ends with
      | ignored | dropped => exact .inl member
      | answered _ _ _ _ _ => exact .inl member
      | collected _ _ _ _ _ tally =>
          rw [tally.rephased.ownVotes] at member
          exact .inl ((rephased_heard _ _).ownVotes ▸ member)
  | rebroadcast ends =>
      cases ends with
      | spent | sent _ _ _ => exact .inl member
  | stop before => exact .inl (before.ownVotes_halted ▸ member)

/-- A gate keeps no own votes of rounds ahead; by induction on the calls. -/
theorem Run.own_reached (run : Run settings window deeds gate)
    : ∀ entry ∈ gate.ownVotes, entry.1 ≤ gate.book.current := by
  induction run with
  | start => simp [initial]
  | @next deeds gate run call _ ih =>
      intro entry member
      have done := call.done settings gate
      rcases done.mem_ownVotes member with kept | voted
      · exact Round.le_trans (ih entry kept) done.grows.current
      · exact (remembers_of_voted done voted).reached

/-- A bundle changes neither the own votes nor the electorate. -/
theorem Deed.Done.keeps_of_receive (done : deed.Done settings) {votes : List Vote}
    (call : deed.call = .receive votes)
    : deed.after.ownVotes = deed.before.ownVotes
      ∧ deed.after.electorate = deed.before.electorate := by
  cases done with
  | receive ends =>
      cases ends with
      | ignored | dropped => exact ⟨rfl, rfl⟩
      | answered _ _ _ _ _ => exact ⟨rfl, rfl⟩
      | collected _ _ _ _ _ tally =>
          exact ⟨tally.rephased.ownVotes.trans (rephased_heard _ _).ownVotes,
            tally.rephased.electorate.trans (rephased_heard _ _).electorate⟩
  | vote _ | switch _ | rebroadcast _ | stop _ => cases call

/-- A switch to a later round keeps no more own votes than there were, and takes over the roster. -/
theorem Switching.arrives {round : Round} {peers : List Peer} {roster : Roster}
    {before after : Gate} {found : Option Outcome} {effects : List Effect}
    (ends : Switching round peers before (.ok found, after, effects))
    (arranged : Roster.ofPeers peers = .ok roster) (reached : before.round ≤ round)
    : after.electorate = some ⟨roster, none⟩ ∧ after.ownVotes ⊆ before.ownVotes := by
  rcases ends.settles with ⟨-, fault, failed⟩ | ⟨other, _, book, _, built, -, -, same⟩
  · cases failed
  · cases arranged.symm.trans built
    rw [same.electorate, same.ownVotes, settled, electorate_moveTo, if_pos reached, ownVotes_moveTo]
    exact ⟨rfl, fun _ => List.mem_of_mem_filter⟩

-----------------------------------------------------------------------------------------
-- Votes in the current round
-----------------------------------------------------------------------------------------

/-- There is nothing left to do for the candidate: it was voted for, or its round is decided, or the
vote cannot be signed.
-/
inductive Served (credentials : Credentials) (candidate : Candidate) (gate : Gate) : Prop
  | voted {vote : Vote} (signed : credentials.sign candidate = .ok vote)
    (kept : (candidate.round, vote) ∈ gate.ownVotes)
  | decided (known : (gate.book.decision candidate.round).isSome)
  | unable {fault : Fault} (refused : credentials.sign candidate = .error fault)

theorem electorate_begun (round : Round) (vote : Vote) (known : gate.electorate = some electorate)
    : (gate.begun round vote electorate).electorate = some electorate := by
  rw [begun, (rephased_enter _ _).electorate, electorate_moveTo]
  split
  · rfl
  · exact known

/-- The current round is closed only once it is decided. -/
theorem closed_current {book : PollBook} (closed : book.Closed book.current)
    : (book.decision book.current).isSome := by
  rcases closed with expired | frozen
  · exact absurd expired (PollBook.not_expired_of_le (Round.le_refl _))
  · exact frozen

/-- What a vote under the electorate in the current round comes to. -/
structure Casting (credentials : Credentials) (candidate : Candidate) (electorate : Electorate)
    (before after : Gate) (effects : List Effect) : Prop where
  served : after.Served credentials candidate
  current : after.book.current = candidate.round
  known : after.electorate = some electorate
  /-- A vote that can be signed is sent to all other peers as long as the round is open. -/
  sent
    : ∀ vote, credentials.sign candidate = .ok vote →
        before.book.decision candidate.round = none →
        ∀ peer ∈ electorate.peers, peer.key ≠ vote.key → .send peer [vote] ∈ effects

theorem casting (live : gate.stopped = false) (current : gate.book.current = candidate.round)
    (known : gate.electorate = some electorate)
    (new : ∀ entry ∈ gate.ownVotes, entry.1 ≠ candidate.round)
    : let deed := (Call.vote candidate electorate).deed settings gate
      Casting settings.credentials candidate electorate gate deed.after deed.effects := by
  have reached : ¬ candidate.round < gate.book.current := current ▸ Round.lt_irrefl _
  by_cases closed : gate.book.Closed candidate.round
  · have decided := current ▸ closed_current (current.symm ▸ closed)
    have refused
        : (vote settings candidate electorate).run gate
          = (.error (.roundFrozen candidate.round), gate, []) := by
      simp [vote, live, reached, closed]
    simp only [Call.deed, Call.activity, Activity.run_bind, refused, Activity.run_pure]
    refine ⟨.decided decided, current, known, fun _ _ undecided => ?_⟩
    rw [undecided] at decided
    cases decided
  cases signed : settings.credentials.sign candidate with
  | error fault =>
      have refused
          : (vote settings candidate electorate).run gate = (.error fault, gate, []) := by
        simp [vote, live, reached, closed, signed]
      simp only [Call.deed, Call.activity, Activity.run_bind, refused, Activity.run_pure]
      exact ⟨.unable signed, current, known, fun _ other => by cases signed.symm.trans other⟩
  | ok vote =>
      obtain ⟨last, effects, tally, run⟩ := run_cast settings vote electorate live new
      have cast
          : (Gate.vote settings candidate electorate).run gate
            = (.ok (), last, effects ++ posts settings candidate.round vote electorate) := by
        simpa [Gate.vote, live, reached, closed, signed] using run
      simp only [Call.deed, Call.activity, Activity.run_bind, cast, Activity.run_pure]
      refine ⟨.voted signed ?_, ?_, ?_, fun other signed' _ peer member differ => ?_⟩
      · rw [tally.rephased.ownVotes]
        exact mem_begun candidate.round vote electorate gate
      · rw [tally.current_eq, book_begun, ← current,
          PollBook.advance_of_le (Round.le_refl _)]
      · rw [tally.rephased.electorate]
        exact electorate_begun candidate.round vote known
      · cases signed.symm.trans signed'
        refine List.mem_append_left _ (List.mem_append_right _ (List.mem_append_left _ ?_))
        exact List.mem_map_of_mem (List.mem_filter.mpr ⟨member, decide_eq_true differ⟩)

/-- A bundle does not undo what was done for a candidate in the current round. -/
theorem Served.receive (done : deed.Done settings) {votes : List Vote}
    (call : deed.call = .receive votes) {credentials : Credentials}
    (served : deed.before.Served credentials candidate)
    (current : deed.before.book.current = candidate.round)
    : deed.after.Served credentials candidate := by
  cases served with
  | voted signed kept =>
      obtain ⟨own, -⟩ := done.keeps_of_receive call
      exact .voted signed (own.symm ▸ kept)
  | decided known =>
      obtain ⟨outcome, known⟩ := Option.isSome_iff_exists.mp known
      have stays := (done.current_of_receive call).trans current
      have recent : ¬ deed.after.book.Expired candidate.round :=
        PollBook.not_expired_of_le (stays ▸ Round.le_refl _)
      exact .decided (Option.isSome_iff_exists.mpr ⟨outcome, done.grows.decision recent known⟩)
  | unable refused => exact .unable refused

end Gate

namespace Conductor

open Gate (Call Deed)

variable {charter : Charter} {conductor next : Conductor} {round : Round} {effects : List Effect}
  {limit : Nat}

-----------------------------------------------------------------------------------------
-- Turns of a conductor
-----------------------------------------------------------------------------------------

/-- The gate consults the roster that the conductor began with, and there is nothing left to do in
its current round.
-/
structure AtRest (charter : Charter) (gate : Gate) : Prop where
  known : gate.electorate = some ⟨charter.roster, none⟩
  served : gate.Served charter.settings.credentials (charter.propose gate.book.current)

/-- What holds of a conductor by its stage. Before it votes, its gate consults the roster already,
and keeps no own vote of the round. While it waits, it has done what there was to do.
-/
def Turn (charter : Charter) (conductor : Conductor) : Prop :=
  match conductor.stage with
  | .voting roster =>
      roster = charter.roster ∧ conductor.gate.electorate = some ⟨charter.roster, none⟩
      ∧ ∀ entry ∈ conductor.gate.ownVotes, entry.1 ≠ conductor.round
  | .waiting | .pausing _ _ => AtRest charter conductor.gate
  | .entering | .failed _ | .stopped => True

/-- What a conductor comes to when it enters its round. -/
structure Entry (charter : Charter) (conductor next : Conductor) : Prop where
  known : next.gate.electorate = some ⟨charter.roster, none⟩
  current : next.gate.book.current = conductor.round
  /-- It goes on to vote, unless the round is decided. -/
  onward
    : next.stage = .voting charter.roster
      ∨ next.stage = .waiting ∧ (next.gate.book.decision conductor.round).isSome
  turn : next.Turn charter

namespace OnCourse

/-- A conductor that is to enter its round does so. -/
theorem exists_entry (course : conductor.OnCourse charter round)
    (stage : conductor.stage = .entering) (limit : Nat)
    : ∃ next effects, conductor.step limit = some (next, effects)
        ∧ Entry charter conductor next := by
  obtain ⟨deeds, run⟩ := course.run
  have behind : conductor.gate.book.current < conductor.round := by
    cases course.leg with
    | entering _ own behind => exact own.symm ▸ behind
    | voting other _ _ _ | waiting other _ _ _ | pausing other _ _ _ | failed other =>
        cases stage.symm.trans other
  have arranged : Roster.ofPeers conductor.peers = .ok charter.roster :=
    course.peers.symm ▸ charter.arranged
  obtain ⟨found, ends, enters⟩ := step_of_entering stage arranged course.live limit
  have current := ends.current_eq (.inl behind)
  have stored := ends.decision_eq
  obtain ⟨known, own⟩ := ends.arrives (Roster.ofPeers_again arranged)
    (run.consults.round.symm ▸ .inl behind)
  refine ⟨_, _, enters, ?_⟩
  cases found with
  | none =>
      refine ⟨known, current, .inl rfl, rfl, known, fun entry member same => ?_⟩
      have reached := run.own_reached entry (own member)
      exact Round.lt_irrefl _ (Round.lt_of_le_of_lt reached (same ▸ behind))
  | some outcome =>
      have decided := Option.isSome_iff_exists.mpr ⟨outcome, stored⟩
      refine ⟨known, current, .inr ⟨rfl, decided⟩, known, .decided ?_⟩
      rw [charter.ofRound]
      exact current.symm ▸ decided

/-- A conductor that is to vote does so. -/
theorem exists_casting (course : conductor.OnCourse charter round)
    (turn : conductor.Turn charter) {roster : Roster} (stage : conductor.stage = .voting roster)
    (limit : Nat)
    : ∃ next effects, conductor.step limit = some (next, effects) ∧ next.stage = .waiting
        ∧ Gate.Casting charter.settings.credentials (charter.propose conductor.round)
            ⟨charter.roster, none⟩ conductor.gate next.gate effects := by
  rw [Turn, stage] at turn
  obtain ⟨rfl, known, new⟩ := turn
  have current : conductor.gate.book.current = conductor.round := by
    cases course.leg with
    | voting _ own current _ => exact current.trans own.symm
    | entering other _ _ | waiting other _ _ _ | pausing other _ _ _ | failed other =>
        cases stage.symm.trans other
  have ofRound := charter.ofRound conductor.round
  refine ⟨_, _, step_of_voting stage limit, rfl, ?_⟩
  rw [course.same, course.propose]
  exact Gate.casting course.live (current.trans ofRound.symm) known (ofRound.symm ▸ new)

end OnCourse

namespace Turn

theorem atRest (turn : conductor.Turn charter) (waits : conductor.Waits)
    : AtRest charter conductor.gate := by
  unfold Turn at turn
  unfold Waits at waits
  cases stage : conductor.stage <;> simp only [stage] at turn waits
  case waiting => exact turn
  case pausing decision wake => exact turn

/-- To wait for an outcome or for the end of a pause makes no difference for the gate. -/
theorem follow (turn : conductor.Turn charter) (stage : conductor.stage = .waiting)
    (outcome : Outcome)
    : (conductor.follow outcome).Turn charter := by
  have rests : AtRest charter conductor.gate := by
    rw [Turn, stage] at turn
    exact turn
  unfold Conductor.follow
  split
  · trivial
  split
  · by_cases pause : outcome.Terminal ∧ 0 < conductor.delay
    · simp only [Turn, if_pos pause]
      exact rests
    · simp only [Turn, if_neg pause]
  · exact turn

/-- Each step takes the conductor on, one case for each stage. -/
theorem step (turn : conductor.Turn charter) (course : conductor.OnCourse charter round)
    (step : conductor.step limit = some (next, effects))
    : next.Turn charter := by
  cases stage : conductor.stage with
  | entering =>
      obtain ⟨other, _, enters, entry⟩ := course.exists_entry stage limit
      cases enters.symm.trans step
      exact entry.turn
  | voting roster =>
      obtain ⟨other, _, votes, waiting, casting⟩ := course.exists_casting turn stage limit
      cases votes.symm.trans step
      rw [Turn, waiting]
      refine ⟨casting.known, ?_⟩
      rw [casting.current, charter.ofRound]
      exact casting.served
  | waiting =>
      obtain ⟨outcome, pending, stream, rfl, -⟩ := step_of_waiting stage step
      have same : Turn charter { conductor with pending, stream } := turn
      exact same.follow stage outcome
  | pausing decision wake =>
      obtain rfl := step_of_pausing stage step
      trivial
  | failed _ | stopped =>
      rw [Conductor.step, stage] at step
      cases step

theorem deliver (turn : conductor.Turn charter) (course : conductor.OnCourse charter round)
    (votes : List Vote)
    : (conductor.deliver votes).2.1.Turn charter := by
  rw [deliver_eq, course.same]
  have done := (Call.receive votes).done charter.settings conductor.gate
  have current := done.current_of_receive rfl
  obtain ⟨own, known⟩ := done.keeps_of_receive rfl
  have rests (before : AtRest charter conductor.gate)
      : AtRest charter ((Call.receive votes).deed charter.settings conductor.gate).after := by
    refine ⟨known.trans before.known, ?_⟩
    rw [current]
    exact before.served.receive done rfl (charter.ofRound _).symm
  unfold Turn at turn ⊢
  simp only [noting]
  cases stage : conductor.stage <;> simp only [stage] at turn ⊢
  case voting roster =>
    obtain ⟨same, consulted, new⟩ := turn
    exact ⟨same, known.trans consulted, own.symm ▸ new⟩
  case waiting => exact rests turn
  case pausing decision wake => exact rests turn

end Turn

/-- By induction on what happens to the conductor. -/
theorem Journey.turn (journey : Journey charter conductor round) : conductor.Turn charter := by
  induction journey with
  | start => trivial
  | step journey step ih => exact ih.step journey.onCourse step
  | deliver journey votes ih => exact ih.deliver journey.onCourse votes
  | remind _ task ih => exact perform_rebroadcast _ task ▸ ih
  | wait _ now ih => exact ih

end Conductor

end Quorum
