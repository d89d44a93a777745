import Quorum.Conductor
import Quorum.Proofs.PollBook.Lookup

/-! Runs of a gate: one call after the other, each of them done before the next one. For each call
there is one relation with all the ways in which it can end, so that what a call does to a gate and
to its surroundings is read off from its cases.
-/

namespace Quorum

/-- The effect reaches no peer, neither now nor later. -/
def Effect.Inward : Effect → Prop
  | .send _ _ | .schedule _ => False
  | .surface _ | .commit _ _ | .count _ _ => True

/-- A bundle is sound if it has votes, all for one round. -/
theorem Bundle.round_eq_ok {votes : List Vote} {round : Round}
    : Bundle.round votes = .ok round ↔ votes ≠ [] ∧ ∀ vote ∈ votes, vote.round = round := by
  cases votes with
  | nil => simp [Bundle.round]
  | cons first rest =>
      rw [Bundle.round]
      constructor
      · intro sound
        by_cases same : ∀ vote ∈ rest, vote.round = first.round
        · rw [if_pos same] at sound
          cases sound
          exact ⟨List.cons_ne_nil _ _, List.forall_mem_cons.mpr ⟨rfl, same⟩⟩
        · rw [if_neg same] at sound
          cases sound
      · rintro ⟨-, ofRound⟩
        obtain ⟨own, others⟩ := List.forall_mem_cons.mp ofRound
        rw [if_pos fun vote member => (others vote member).trans own.symm, own]

namespace Gate

open Activity

-----------------------------------------------------------------------------------------
-- Activities that begin with a step
-----------------------------------------------------------------------------------------

section

variable {α β : Type} (gate : Gate)

theorem run_observe_bind (view : Gate → α) (next : α → Activity β)
    : (observe view >>= next).run gate = (next (view gate)).run gate := by
  simp

theorem run_modify_bind (change : Gate → Gate) (next : Unit → Activity β)
    : (modify change >>= next).run gate = (next ()).run (change gate) := by
  simp

theorem run_perform_bind (act : Gate → α × Gate × List Effect) (next : α → Activity β)
    : (perform act >>= next).run gate
      = let later := (next (act gate).1).run (act gate).2.1
        (later.1, later.2.1, (act gate).2.2 ++ later.2.2) := by
  simp

end

-----------------------------------------------------------------------------------------
-- Changes of a gate
-----------------------------------------------------------------------------------------

/-- The gates differ in their phases at most. -/
structure Rephased (gate later : Gate) : Prop where
  stopped : later.stopped = gate.stopped
  round : later.round = gate.round
  electorate : later.electorate = gate.electorate
  ownVotes : later.ownVotes = gate.ownVotes
  book : later.book = gate.book

theorem Rephased.refl (gate : Gate) : Rephased gate gate :=
  ⟨rfl, rfl, rfl, rfl, rfl⟩

theorem rephased_enter (phase : Phase) (gate : Gate) : Rephased gate (gate.enter phase) := by
  unfold enter
  split
  · exact .refl gate
  · exact ⟨rfl, rfl, rfl, rfl, rfl⟩

theorem rephased_startDeciding (round : Round) (gate : Gate)
    : Rephased gate (gate.startDeciding round) := by
  unfold startDeciding
  split
  · exact ⟨rfl, rfl, rfl, rfl, rfl⟩
  · exact .refl gate

theorem rephased_record (outcome : Outcome) (gate : Gate)
    : Rephased gate (gate.record outcome).1 := by
  unfold record
  simp only
  split
  · exact rephased_enter _ gate
  · exact .refl gate

/-- Moves on to a round that an electorate may decide. -/
def moveTo (round : Round) (electorate : Electorate) (gate : Gate) : Gate :=
  ((gate.advance round).forget round).adopt round electorate

section

variable (round : Round) (electorate : Electorate) (gate : Gate)

@[simp] theorem stopped_moveTo : (gate.moveTo round electorate).stopped = gate.stopped := by
  unfold moveTo adopt
  split <;> rfl

@[simp] theorem book_moveTo : (gate.moveTo round electorate).book = gate.book.advance round := by
  unfold moveTo adopt
  split <;> rfl

@[simp] theorem ownVotes_moveTo
    : (gate.moveTo round electorate).ownVotes = ((gate.advance round).forget round).ownVotes := by
  unfold moveTo adopt
  split <;> rfl

theorem round_moveTo
    : (gate.moveTo round electorate).round = if gate.round ≤ round then round else gate.round := by
  change (Gate.adopt round electorate _).round = _
  unfold adopt
  split
  · next reached => exact (if_pos reached).symm
  · next behind => exact (if_neg behind).symm

theorem electorate_moveTo
    : (gate.moveTo round electorate).electorate
      = if gate.round ≤ round then some electorate else gate.electorate := by
  change (Gate.adopt round electorate _).electorate = _
  unfold adopt
  split
  · next reached => exact (if_pos reached).symm
  · next behind => exact (if_neg behind).symm

end

-----------------------------------------------------------------------------------------
-- Votes into the polls
-----------------------------------------------------------------------------------------

theorem inward_intakeCounts (intake : Intake)
    : ∀ effect ∈ intakeCounts intake, effect.Inward := by
  unfold intakeCounts
  refine List.forall_mem_append.mpr ⟨?_, ?_⟩ <;> split <;> simp [Effect.Inward]

theorem inward_record (outcome : Outcome) (gate : Gate)
    : ∀ effect ∈ (gate.record outcome).2, effect.Inward := by
  unfold record
  refine List.forall_mem_cons.mpr ⟨trivial, ?_⟩
  split <;> simp [Effect.Inward]

/-- What the insertion of votes gives. -/
def polled (round : Round) (votes : List Vote) (electorate : Electorate) (gate : Gate)
    : PollBook × Receipt :=
  gate.book.insert round votes (some electorate)

/-- The ways in which votes can be taken in, and what they bring about be reported. -/
inductive Tally (round : Round) (votes : List Vote) (electorate : Electorate) (gate : Gate)
    : Gate × List Effect → Prop
  /-- There is no outcome, or it ends a round that is no longer current. -/
  | silent
    (untimely
      : ∀ outcome, (gate.polled round votes electorate).2.outcome = some outcome →
          outcome.Terminal ∧ outcome.round ≠ gate.book.current)
    : Tally round votes electorate gate
        ({ gate with book := (gate.polled round votes electorate).1 },
          intakeCounts (gate.polled round votes electorate).2.intake)
  | told {outcome : Outcome}
    (found : (gate.polled round votes electorate).2.outcome = some outcome)
    (timely : outcome.Terminal → outcome.round = gate.book.current)
    : Tally round votes electorate gate
        ((record outcome { gate with book := (gate.polled round votes electorate).1 }).1,
          intakeCounts (gate.polled round votes electorate).2.intake
            ++ ((record outcome gate).2 ++ [.surface outcome]))

theorem Tally.rephased {round : Round} {votes : List Vote} {electorate : Electorate}
    {gate last : Gate} {effects : List Effect}
    (tally : Tally round votes electorate gate (last, effects))
    : Rephased { gate with book := (gate.polled round votes electorate).1 } last := by
  cases tally with
  | silent _ => exact .refl _
  | told _ _ => exact rephased_record _ _

theorem Tally.inward {round : Round} {votes : List Vote} {electorate : Electorate}
    {gate last : Gate} {effects : List Effect}
    (tally : Tally round votes electorate gate (last, effects))
    : ∀ effect ∈ effects, effect.Inward := by
  cases tally with
  | silent _ => exact inward_intakeCounts _
  | told _ _ =>
      refine List.forall_mem_append.mpr ⟨inward_intakeCounts _, ?_⟩
      refine List.forall_mem_append.mpr ⟨inward_record _ gate, ?_⟩
      exact List.forall_mem_singleton.mpr trivial

theorem run_report (outcome : Outcome) (gate : Gate)
    : (report outcome).run gate
      = if outcome.Terminal ∧ outcome.round ≠ gate.book.current then ((), gate, [])
        else gate.surface outcome := by
  unfold report
  rw [run_bind, run_observe]
  simp only
  split <;> simp

theorem run_poll_bind {α : Type} (round : Round) (votes : List Vote) (electorate : Electorate)
    (gate : Gate) (next : Option Outcome → Activity α)
    : (poll round votes electorate >>= next).run gate
      = let polls := gate.polled round votes electorate
        let later := (next polls.2.outcome).run { gate with book := polls.1 }
        (later.1, later.2.1, intakeCounts polls.2.intake ++ later.2.2) := by
  rw [poll, run_perform_bind]
  rfl

/-- Polls votes and reports the outcome, and then goes on. -/
def tallying {α : Type} (round : Round) (votes : List Vote) (electorate : Electorate)
    (rest : Activity α)
    : Activity α := do
  match ← poll round votes electorate with
  | some outcome => do
      report outcome
      rest
  | none => rest

theorem run_poll_of {α : Type} {round : Round} {votes : List Vote} {electorate : Electorate}
    {gate : Gate} {next : Option Outcome → Activity α} {rest : Activity α}
    (quiet : ∀ gate, (next none).run gate = rest.run gate)
    (telling : ∀ outcome gate,
      (next (some outcome)).run gate = (report outcome >>= fun _ => rest).run gate)
    : (poll round votes electorate >>= next).run gate
      = (tallying round votes electorate rest).run gate := by
  rw [tallying, run_poll_bind, run_poll_bind]
  cases found : (gate.polled round votes electorate).2.outcome with
  | none => simp only [found, quiet]
  | some outcome => simp only [found, telling]

theorem run_tallying {α : Type} (round : Round) (votes : List Vote) (electorate : Electorate)
    (rest : Activity α) {gate : Gate} (live : gate.stopped = false)
    : ∃ last effects, Tally round votes electorate gate (last, effects)
        ∧ (tallying round votes electorate rest).run gate
          = ((rest.run last).1, (rest.run last).2.1, effects ++ (rest.run last).2.2) := by
  have current : (gate.polled round votes electorate).1.current = gate.book.current :=
    PollBook.current_insert ..
  rw [tallying, run_poll_bind]
  cases found : (gate.polled round votes electorate).2.outcome with
  | none =>
      refine ⟨_, _, .silent (by simp [found]), ?_⟩
      simp only [found]
  | some outcome =>
      simp only [found, run_bind, run_report, current]
      by_cases late : outcome.Terminal ∧ outcome.round ≠ gate.book.current
      · refine ⟨_, _, .silent ?_, ?_⟩
        · intro other same
          cases found.symm.trans same
          exact late
        · simp only [if_pos late, List.nil_append]
      · refine ⟨_, _, .told found fun terminal => ?_, ?_⟩
        · by_contra other
          exact late ⟨terminal, other⟩
        · simp [if_neg late, surface, live, record]

theorem run_send {peers : List Peer} {votes : List Vote} {gate : Gate}
    (live : gate.stopped = false)
    : (send peers votes).run gate = ((), gate, peers.map (.send · votes)) := by
  simp [send, live]

-----------------------------------------------------------------------------------------
-- Votes
-----------------------------------------------------------------------------------------

/-- The gate when it has kept a vote of its own, and goes to its round to cast it. -/
def begun (round : Round) (vote : Vote) (electorate : Electorate) (gate : Gate) : Gate :=
  ({ gate with ownVotes := gate.ownVotes ++ [(round, vote)] }.moveTo round electorate).enter
    (.voting round)

/-- What a vote that is cast sends, and asks to be sent again. -/
def posts (settings : Settings) (round : Round) (vote : Vote) (electorate : Electorate)
    : List Effect :=
  let peers := electorate.peers.filter fun peer => decide (peer.key ≠ vote.key)
  peers.map (.send · [vote])
    ++ if 0 < settings.rebroadcasts ∧ peers ≠ [] then [.schedule ⟨round, vote, peers⟩] else []

/-- The ways in which a vote can end. -/
inductive Voting (settings : Settings) (candidate : Candidate) (electorate : Electorate)
    (gate : Gate)
    : Except Fault Unit × Gate × List Effect → Prop
  | refused (fault : Fault) : Voting settings candidate electorate gate (.error fault, gate, [])
  | cast {vote : Vote} {last : Gate} {effects : List Effect} (live : gate.stopped = false)
    (reached : ¬ candidate.round < gate.book.current)
    (active : ¬ gate.book.Closed candidate.round)
    (signed : settings.credentials.sign candidate = .ok vote)
    (new : ∀ entry ∈ gate.ownVotes, entry.1 ≠ candidate.round)
    (tally
      : Tally candidate.round [vote] electorate (gate.begun candidate.round vote electorate)
          (last, effects))
    : Voting settings candidate electorate gate
        (.ok (), last, effects ++ posts settings candidate.round vote electorate)

theorem stopped_begun (round : Round) (vote : Vote) (electorate : Electorate) (gate : Gate)
    : (gate.begun round vote electorate).stopped = gate.stopped := by
  simp [begun, (rephased_enter _ _).stopped]

theorem book_begun (round : Round) (vote : Vote) (electorate : Electorate) (gate : Gate)
    : (gate.begun round vote electorate).book = gate.book.advance round := by
  rw [begun, (rephased_enter _ _).book, book_moveTo]

/-- Sends a vote that was cast, and asks for it to be sent again. -/
def publish (settings : Settings) (round : Round) (vote : Vote) (electorate : Electorate)
    : Activity (Except Fault Unit) := do
  let peers := electorate.peers.filter fun peer => decide (peer.key ≠ vote.key)
  send peers [vote]
  if 0 < settings.rebroadcasts ∧ peers ≠ [] then
    emit [.schedule ⟨round, vote, peers⟩]
  return .ok ()

theorem run_publish (settings : Settings) (round : Round) (vote : Vote) (electorate : Electorate)
    {gate : Gate} (live : gate.stopped = false)
    : (publish settings round vote electorate).run gate
      = (.ok (), gate, posts settings round vote electorate) := by
  unfold publish posts
  simp only [run_bind, run_send live]
  split <;> simp

theorem run_cast (settings : Settings) {round : Round} (vote : Vote) (electorate : Electorate)
    {gate : Gate} (live : gate.stopped = false)
    (new : ∀ entry ∈ gate.ownVotes, entry.1 ≠ round)
    : ∃ last effects,
        Tally round [vote] electorate (gate.begun round vote electorate) (last, effects)
        ∧ (cast settings round vote electorate).run gate
          = (.ok (), last, effects ++ posts settings round vote electorate) := by
  have fresh : ¬ ∃ entry ∈ gate.ownVotes, entry.1 = round :=
    fun ⟨entry, member, same⟩ => new entry member same
  have live_begun := (stopped_begun round vote electorate gate).trans live
  obtain ⟨last, effects, tally, run⟩ := run_tallying round [vote] electorate
    (publish settings round vote electorate) live_begun
  have live_last : last.stopped = false := tally.rephased.stopped.trans live_begun
  rw [run_publish settings round vote electorate live_last] at run
  refine ⟨last, effects, tally, Eq.trans ?_ run⟩
  unfold cast
  rw [run_perform_bind, keepVote, if_neg fresh]
  simp only [if_true, List.nil_append, run_modify_bind, Prod.mk.eta]
  exact run_poll_of (fun _ => rfl) fun _ _ => rfl

theorem voting (settings : Settings) (candidate : Candidate) (electorate : Electorate)
    (gate : Gate)
    : Voting settings candidate electorate gate
        ((vote settings candidate electorate).run gate) := by
  unfold vote
  rw [run_observe_bind]
  split
  · exact .refused _
  next live =>
  rw [run_observe_bind]
  split
  · exact .refused _
  next reached =>
  rw [run_observe_bind]
  split
  · exact .refused _
  next active =>
  cases signed : settings.credentials.sign candidate with
  | error fault => exact .refused fault
  | ok vote =>
      by_cases new : ∀ entry ∈ gate.ownVotes, entry.1 ≠ candidate.round
      · have live : gate.stopped = false := by simpa using live
        obtain ⟨last, effects, tally, run⟩ := run_cast settings vote electorate live new
        simp only [run]
        exact .cast live (by simpa using reached) (by simpa using active) signed new tally
      · have repeated : ∃ entry ∈ gate.ownVotes, entry.1 = candidate.round := by
          simpa using new
        simp only [cast, run_perform_bind, keepVote, if_pos repeated]
        exact .refused _

-----------------------------------------------------------------------------------------
-- Switches
-----------------------------------------------------------------------------------------

/-- The gate when it has moved to a round, and its polls were evaluated. -/
def settled (round : Round) (roster : Roster) (book : PollBook) (gate : Gate) : Gate :=
  { gate.moveTo round ⟨roster, none⟩ with book }

/-- The ways in which a switch to a round can end. -/
inductive Switching (round : Round) (peers : List Peer) (gate : Gate)
    : Except Fault (Option Outcome) × Gate × List Effect → Prop
  | refused (fault : Fault) : Switching round peers gate (.error fault, gate, [])
  /-- The round is not decided. -/
  | opened {roster : Roster} {book : PollBook} (live : gate.stopped = false)
    (arranged : Roster.ofPeers peers = .ok roster)
    (ruling : (gate.book.advance round).evaluate round ⟨roster, none⟩ = (book, none))
    : Switching round peers gate
        (.ok none, (gate.settled round roster book).enter (.voting round), [])
  /-- The round was decided before. -/
  | replayed {roster : Roster} {book : PollBook} {outcome : Outcome} (live : gate.stopped = false)
    (arranged : Roster.ofPeers peers = .ok roster)
    (ruling
      : (gate.book.advance round).evaluate round ⟨roster, none⟩ = (book, some ⟨outcome, false⟩))
    : Switching round peers gate
        (.ok (some outcome), (gate.settled round roster book).enter (.frozen round), [])
  /-- The votes that are held decide the round. -/
  | decided {roster : Roster} {book : PollBook} {outcome : Outcome} {last : Gate}
    {effects : List Effect} (live : gate.stopped = false)
    (arranged : Roster.ofPeers peers = .ok roster)
    (ruling
      : (gate.book.advance round).evaluate round ⟨roster, none⟩ = (book, some ⟨outcome, true⟩))
    (recorded : (gate.settled round roster book).record outcome = (last, effects))
    : Switching round peers gate (.ok (some outcome), last, effects)

theorem Switching.inward {round : Round} {peers : List Peer} {gate last : Gate}
    {result : Except Fault (Option Outcome)} {effects : List Effect}
    (ends : Switching round peers gate (result, last, effects))
    : ∀ effect ∈ effects, effect.Inward := by
  cases ends with
  | refused _ => simp
  | opened _ _ _ => simp
  | replayed _ _ _ => simp
  | @decided roster book outcome _ _ _ _ _ recorded =>
      have inward := inward_record outcome (gate.settled round roster book)
      rwa [recorded] at inward

/-- A switch is refused, or it settles its round under the roster of the peers. -/
theorem Switching.settles {round : Round} {peers : List Peer} {gate last : Gate}
    {result : Except Fault (Option Outcome)} {effects : List Effect}
    (ends : Switching round peers gate (result, last, effects))
    : (last = gate ∧ ∃ fault, result = .error fault)
      ∨ ∃ roster found book ruling,
          Roster.ofPeers peers = .ok roster ∧ result = .ok found
          ∧ (gate.book.advance round).evaluate round ⟨roster, none⟩ = (book, ruling)
          ∧ Rephased (gate.settled round roster book) last := by
  cases ends with
  | refused fault => exact .inl ⟨rfl, fault, rfl⟩
  | opened _ arranged ruling =>
      exact .inr ⟨_, _, _, _, arranged, rfl, ruling, rephased_enter _ _⟩
  | replayed _ arranged ruling =>
      exact .inr ⟨_, _, _, _, arranged, rfl, ruling, rephased_enter _ _⟩
  | @decided roster book outcome _ _ _ arranged ruling recorded =>
      have phase := rephased_record outcome (gate.settled round roster book)
      rw [recorded] at phase
      exact .inr ⟨_, _, _, _, arranged, rfl, ruling, phase⟩

/-- To evaluate the polls moves them no further. -/
theorem current_settled {round : Round} {roster : Roster} {gate : Gate} {book : PollBook}
    {ruling : Option Ruling}
    (evaluated : (gate.book.advance round).evaluate round ⟨roster, none⟩ = (book, ruling))
    : (gate.settled round roster book).book.current
      = (gate.moveTo round ⟨roster, none⟩).book.current := by
  obtain rfl := congrArg Prod.fst evaluated
  rw [book_moveTo]
  exact PollBook.current_evaluate ..

/-- A switch that is not refused leads to its round, or leaves the gate past it. -/
theorem Switching.reached {round : Round} {peers : List Peer} {gate last : Gate}
    {found : Option Outcome} {effects : List Effect}
    (ends : Switching round peers gate (.ok found, last, effects))
    : round ≤ last.book.current := by
  rcases ends.settles with ⟨-, fault, failed⟩ | ⟨roster, _, book, _, -, -, evaluated, same⟩
  · cases failed
  · rw [same.book, current_settled evaluated, book_moveTo]
    exact Round.not_lt.mp (gate.book.not_current_lt_advance round)

/-- The end of a switch to a round, with what the polls gave, on a gate that has moved there. -/
def conclude (round : Round) (ruling : Option Ruling) (gate : Gate)
    : Except Fault (Option Outcome) × Gate × List Effect :=
  match ruling with
  | none => (.ok none, gate.enter (.voting round), [])
  | some ⟨outcome, false⟩ => (.ok (some outcome), gate.enter (.frozen round), [])
  | some ⟨outcome, true⟩ => (.ok (some outcome), gate.record outcome)

theorem run_switch (round : Round) {peers : List Peer} {roster : Roster} {gate : Gate}
    (live : gate.stopped = false) (arranged : Roster.ofPeers peers = .ok roster)
    : (switch round peers).run gate
      = let (book, ruling) := (gate.book.advance round).evaluate round ⟨roster, none⟩
        conclude round ruling (gate.settled round roster book) := by
  rw [switch, run_observe_bind, live, arranged]
  simp only [Bool.false_eq_true, if_false, enterRound, run_modify_bind, run_perform_bind,
    List.nil_append]
  rw [show Gate.adopt round ⟨roster, none⟩ _ = gate.moveTo round ⟨roster, none⟩ from rfl,
    book_moveTo]
  cases (gate.book.advance round).evaluate round ⟨roster, none⟩ with
  | mk book ruling =>
      match ruling with
      | none => rfl
      | some ⟨outcome, false⟩ => rfl
      | some ⟨outcome, true⟩ =>
          have live_settled : (gate.settled round roster book).stopped = false :=
            (stopped_moveTo round ⟨roster, none⟩ gate).trans live
          have recorded
              : recordSwitch outcome (gate.settled round roster book)
                = (true, (gate.settled round roster book).record outcome) := by
            rw [recordSwitch, live_settled]
            rfl
          simp only [run_perform_bind]
          rw [show ({ gate.moveTo round ⟨roster, none⟩ with book } : Gate)
            = gate.settled round roster book from rfl, recorded]
          simp [conclude]

/-- A switch is not refused while the gate is not stopped and the peers make up a roster. -/
theorem exists_switch_eq_ok {peers : List Peer} {roster : Roster}
    (arranged : Roster.ofPeers peers = .ok roster) (round : Round) {gate : Gate}
    (live : gate.stopped = false)
    : ∃ found, ((switch round peers).run gate).1 = .ok found := by
  rw [run_switch round live arranged]
  cases (gate.book.advance round).evaluate round ⟨roster, none⟩ with
  | mk book ruling =>
      match ruling with
      | none => exact ⟨none, rfl⟩
      | some ⟨outcome, false⟩ | some ⟨outcome, true⟩ => exact ⟨some outcome, rfl⟩

/-- A stopped gate refuses to switch, and a live one if the peers make up no roster. -/
theorem run_switch_of_refused (round : Round) {peers : List Peer} {gate : Gate}
    (refused : gate.stopped = false → ∀ roster, Roster.ofPeers peers ≠ .ok roster)
    : ∃ fault, (switch round peers).run gate = (.error fault, gate, []) := by
  rw [switch, run_observe_bind]
  cases stopped : gate.stopped with
  | true => exact ⟨.stopped, rfl⟩
  | false =>
      cases arranged : Roster.ofPeers peers with
      | error fault => exact ⟨fault, rfl⟩
      | ok roster => exact absurd arranged (refused stopped roster)

theorem switching (round : Round) (peers : List Peer) (gate : Gate)
    : Switching round peers gate ((switch round peers).run gate) := by
  by_cases usable : gate.stopped = false ∧ ∃ roster, Roster.ofPeers peers = .ok roster
  case neg =>
    obtain ⟨fault, run⟩ := run_switch_of_refused round fun live roster arranged =>
      usable ⟨live, roster, arranged⟩
    rw [run]
    exact .refused fault
  obtain ⟨live, roster, arranged⟩ := usable
  rw [run_switch round live arranged]
  cases ruling : (gate.book.advance round).evaluate round ⟨roster, none⟩ with
  | mk book found =>
      match found with
      | none => exact .opened live arranged ruling
      | some ⟨outcome, false⟩ => exact .replayed live arranged ruling
      | some ⟨outcome, true⟩ => exact .decided live arranged ruling rfl

-----------------------------------------------------------------------------------------
-- Bundles
-----------------------------------------------------------------------------------------

/-- The votes by keys of an electorate. -/
def admitted (electorate : Electorate) (votes : List Vote) : List Vote :=
  votes.filter fun vote => decide (electorate.Has vote.key)

/-- The gate when votes of a round that is not closed have come in. -/
def heard (round : Round) (gate : Gate) : Gate :=
  if round = gate.round then gate.startDeciding round else gate

/-- The ways in which a bundle can be received. -/
inductive Receiving (settings : Settings) (votes : List Vote) (gate : Gate)
    : Gate × List Effect → Prop
  /-- The gate is stopped, or knows no electorate, or none of the voters. -/
  | ignored : Receiving settings votes gate (gate, [])
  | dropped : Receiving settings votes gate (gate, [.count .bundlesDropped 1])
  /-- The round is decided already. -/
  | answered {round : Round} {decision : Outcome} {electorate : Electorate}
    (live : gate.stopped = false) (sound : Bundle.round votes = .ok round)
    (genuine : ∀ vote ∈ votes, settings.credentials.accepts vote = true)
    (known : gate.book.decision round = some decision)
    (consulted : gate.electorate = some electorate)
    : Receiving settings votes gate
        (gate, (laggards decision electorate votes).map (.send · decision.votes))
  | collected {round : Round} {electorate : Electorate} {last : Gate} {effects : List Effect}
    (live : gate.stopped = false) (sound : Bundle.round votes = .ok round)
    (genuine : ∀ vote ∈ votes, settings.credentials.accepts vote = true)
    (active : ¬ gate.book.Closed round) (consulted : gate.electorate = some electorate)
    (tally : Tally round (admitted electorate votes) electorate (gate.heard round) (last, effects))
    : Receiving settings votes gate (last, effects)

theorem rephased_heard (round : Round) (gate : Gate) : Rephased gate (gate.heard round) := by
  unfold heard
  split
  · exact rephased_startDeciding round gate
  · exact .refl gate

/-- The laggards are the peers whose votes are in the bundle and are not counted. -/
theorem mem_laggards {decision : Outcome} {electorate : Electorate} {votes : List Vote}
    {peer : Peer}
    : peer ∈ laggards decision electorate votes
      ↔ ∃ vote ∈ votes, (¬ ∃ counted ∈ decision.votes, counted.key = vote.key)
          ∧ electorate.peer? vote.key = some peer := by
  induction votes using List.reverseRecOn with
  | nil => simp [laggards]
  | append_singleton rest vote ih =>
      have last (property : Vote → Prop)
          : (∃ entry ∈ rest ++ [vote], property entry)
            ↔ (∃ entry ∈ rest, property entry) ∨ property vote := by
        simp [or_and_right, exists_or]
      rw [last, ← ih, laggards, List.foldl_append, List.foldl_cons, List.foldl_nil]
      rw [show rest.foldl _ [] = laggards decision electorate rest from rfl]
      split
      · next counted => exact ⟨.inl, fun lags => lags.resolve_right fun lags => lags.1 counted⟩
      · next uncounted =>
          cases known : electorate.peer? vote.key with
          | none => simp
          | some target =>
              simp only [uncounted, not_false_eq_true, true_and, Option.some.injEq]
              split
              · next already =>
                  exact ⟨.inl, fun lags => lags.elim id fun same => same ▸ already⟩
              · simp [eq_comm]

/-- An answer goes to the peers whose votes the decision does not count, if there are any. -/
theorem run_answer (round : Round) (votes : List Vote) {gate : Gate} (live : gate.stopped = false)
    : (answer round votes).run gate
      = ((), gate,
          match gate.book.decision round, gate.electorate with
          | some decision, some electorate =>
              (laggards decision electorate votes).map (.send · decision.votes)
          | _, _ => []) := by
  simp only [answer, run_observe_bind]
  cases gate.book.decision round with
  | none => rfl
  | some decision =>
      simp only [run_observe_bind]
      cases gate.electorate with
      | none => rfl
      | some electorate =>
          simp only
          split
          · next nobody => simp [nobody]
          · exact run_send live

theorem run_collect_of_unknown {round : Round} {votes : List Vote} {gate : Gate}
    (unknown : gate.electorate = none)
    : (collect round votes).run gate = ((), gate, []) := by
  simp only [collect, run_observe_bind, unknown]
  rfl

/-- Votes are collected as far as they are by known peers, if any of them is. -/
theorem run_collect {round : Round} {votes : List Vote} {electorate : Electorate} {gate : Gate}
    (live : gate.stopped = false) (consulted : gate.electorate = some electorate)
    : ∃ last effects,
        Tally round (admitted electorate votes) electorate (gate.heard round) (last, effects)
        ∧ (collect round votes).run gate
          = if admitted electorate votes = [] then ((), gate, []) else ((), last, effects) := by
  obtain ⟨last, effects, tally, run⟩ := run_tallying round (admitted electorate votes) electorate
    (pure ()) ((rephased_heard round gate).stopped.trans live)
  refine ⟨last, effects, tally, ?_⟩
  simp only [run_pure, List.append_nil] at run
  simp only [collect, run_observe_bind, consulted]
  rw [show votes.filter (fun vote => decide (electorate.Has vote.key)) = admitted electorate votes
    from rfl]
  by_cases strangers : admitted electorate votes = []
  · simp only [strangers, ne_eq, not_true_eq_false, if_false, if_true]
    rfl
  · simp only [strangers, ne_eq, not_false_eq_true, if_true, if_false]
    rw [← run, heard]
    split
    · rw [run_modify_bind]
      exact run_poll_of (fun _ => rfl) fun _ _ => by simp
    · exact run_poll_of (fun _ => rfl) fun _ _ => by simp

/-- A sound bundle of accepted votes is answered if its round is closed, and collected otherwise. -/
theorem run_receive {settings : Settings} {votes : List Vote} {gate : Gate} {round : Round}
    (live : gate.stopped = false) (sound : Bundle.round votes = .ok round)
    (genuine : ∀ vote ∈ votes, settings.credentials.accepts vote = true)
    : (receive settings votes).run gate
      = if gate.book.Closed round then (answer round votes).run gate
        else (collect round votes).run gate := by
  rw [receive, run_observe_bind, live, if_neg Bool.false_ne_true]
  simp only [sound, List.all_eq_true.mpr genuine, not_true_eq_false, if_false]
  rw [run_observe_bind]
  by_cases closed : gate.book.Closed round <;> simp only [closed, decide_true, decide_false,
    if_true, Bool.false_eq_true, if_false]

/-- All other bundles are dropped. -/
theorem run_receive_of_unsound {settings : Settings} {votes : List Vote} {gate : Gate}
    (live : gate.stopped = false)
    (unsound
      : ∀ round, Bundle.round votes = .ok round →
          ∃ vote ∈ votes, settings.credentials.accepts vote = false)
    : (receive settings votes).run gate = ((), gate, [.count .bundlesDropped 1]) := by
  rw [receive, run_observe_bind, live]
  cases sound : Bundle.round votes with
  | error defect => rfl
  | ok round =>
      have forged : ¬ votes.all settings.credentials.accepts = true := by
        simpa using unsound round sound
      simp [forged]

theorem receiving (settings : Settings) (votes : List Vote) (gate : Gate)
    : Receiving settings votes gate ((receive settings votes).run gate).2 := by
  cases stopped : gate.stopped with
  | true =>
      rw [receive, run_observe_bind, stopped]
      exact .ignored
  | false =>
  by_cases usable
    : ∃ round, Bundle.round votes = .ok round
        ∧ ∀ vote ∈ votes, settings.credentials.accepts vote = true
  case neg =>
    rw [run_receive_of_unsound stopped (by simpa using usable)]
    exact .dropped
  obtain ⟨round, sound, genuine⟩ := usable
  rw [run_receive stopped sound genuine]
  split
  · rw [run_answer round votes stopped]
    cases known : gate.book.decision round with
    | none => exact .ignored
    | some decision =>
        cases consulted : gate.electorate with
        | none => exact .ignored
        | some electorate => exact .answered stopped sound genuine known consulted
  · next active =>
    cases consulted : gate.electorate with
    | none =>
        rw [run_collect_of_unknown consulted]
        exact .ignored
    | some electorate =>
        obtain ⟨last, effects, tally, run⟩ := run_collect stopped consulted
        rw [run]
        split
        · exact .ignored
        · exact .collected stopped sound genuine active consulted tally

-----------------------------------------------------------------------------------------
-- Rebroadcasts and stops
-----------------------------------------------------------------------------------------

/-- The ways in which a rebroadcast can end. -/
inductive Ringing (task : Rebroadcast) (gate : Gate) : Bool × Gate × List Effect → Prop
  | spent : Ringing task gate (false, gate, [])
  | sent (live : gate.stopped = false) (active : ¬ gate.book.Closed task.round)
    (current : gate.book.current = task.round)
    : Ringing task gate (true, gate, task.peers.map (.send · [task.vote]))

theorem ringing (task : Rebroadcast) (gate : Gate)
    : Ringing task gate ((rebroadcast task).run gate) := by
  unfold rebroadcast
  rw [run_observe_bind]
  split
  · exact .spent
  next live =>
  rw [run_observe_bind]
  split
  · exact .spent
  next active =>
  rw [run_observe_bind]
  split
  · exact .spent
  next current =>
  have live : gate.stopped = false := by simpa using live
  rw [run_bind, run_send live]
  simpa using Ringing.sent live (by simpa using active) (by simpa using current)

/-- The gate when it is stopped for good. -/
def halted (gate : Gate) : Gate :=
  if gate.stopped then gate else { gate with stopped := true, phase := .stopped }

section

variable (gate : Gate)

@[simp] theorem round_halted : gate.halted.round = gate.round := by
  unfold halted
  split <;> rfl

@[simp] theorem electorate_halted : gate.halted.electorate = gate.electorate := by
  unfold halted
  split <;> rfl

@[simp] theorem ownVotes_halted : gate.halted.ownVotes = gate.ownVotes := by
  unfold halted
  split <;> rfl

@[simp] theorem book_halted : gate.halted.book = gate.book := by
  unfold halted
  split <;> rfl

end

-----------------------------------------------------------------------------------------
-- Runs
-----------------------------------------------------------------------------------------

/-- What can be done with a gate. -/
inductive Call where
  | vote (candidate : Candidate) (electorate : Electorate)
  | switch (round : Round) (peers : List Peer)
  | receive (votes : List Vote)
  | rebroadcast (task : Rebroadcast)
  | stop

inductive Reply where
  | voted (result : Except Fault Unit)
  | switched (result : Except Fault (Option Outcome))
  | rebroadcast (again : Bool)
  | done

/-- The work that a call asks for. -/
def Call.activity (settings : Settings) : Call → Activity Reply
  | .vote candidate electorate => do return .voted (← Gate.vote settings candidate electorate)
  | .switch round peers => do return .switched (← Gate.switch round peers)
  | .receive votes => do
      Gate.receive settings votes
      return .done
  | .rebroadcast task => do return .rebroadcast (← Gate.rebroadcast task)
  | .stop => do
      Gate.stop
      return .done

/-- A call that was done: the gate before and after it, its result and its effects. -/
structure Deed where
  call : Call
  before : Gate
  reply : Reply
  after : Gate
  effects : List Effect

/-- Does a call. -/
def Call.deed (settings : Settings) (call : Call) (gate : Gate) : Deed :=
  let (reply, after, effects) := (call.activity settings).run gate
  ⟨call, gate, reply, after, effects⟩

/-- The ways in which a call can end. -/
inductive Deed.Done (settings : Settings) : Deed → Prop
  | vote {candidate electorate before result after effects}
    (ends : Voting settings candidate electorate before (result, after, effects))
    : Done settings ⟨.vote candidate electorate, before, .voted result, after, effects⟩
  | switch {round peers before result after effects}
    (ends : Switching round peers before (result, after, effects))
    : Done settings ⟨.switch round peers, before, .switched result, after, effects⟩
  | receive {votes before after effects}
    (ends : Receiving settings votes before (after, effects))
    : Done settings ⟨.receive votes, before, .done, after, effects⟩
  | rebroadcast {task before again after effects}
    (ends : Ringing task before (again, after, effects))
    : Done settings ⟨.rebroadcast task, before, .rebroadcast again, after, effects⟩
  | stop (before : Gate) : Done settings ⟨.stop, before, .done, before.halted, []⟩

theorem Call.done (settings : Settings) (call : Call) (gate : Gate)
    : (call.deed settings gate).Done settings := by
  cases call with
  | vote candidate electorate =>
      have ends := voting settings candidate electorate gate
      simp only [deed, activity, run_bind, run_pure, List.append_nil]
      generalize (Gate.vote settings candidate electorate).run gate = ending at ends ⊢
      exact .vote ends
  | switch round peers =>
      have ends := switching round peers gate
      simp only [deed, activity, run_bind, run_pure, List.append_nil]
      generalize (Gate.switch round peers).run gate = ending at ends ⊢
      exact .switch ends
  | receive votes =>
      have ends := receiving settings votes gate
      simp only [deed, activity, run_bind, run_pure, List.append_nil]
      generalize (Gate.receive settings votes).run gate = ending at ends ⊢
      exact .receive ends
  | rebroadcast task =>
      have ends := ringing task gate
      simp only [deed, activity, run_bind, run_pure, List.append_nil]
      generalize (Gate.rebroadcast task).run gate = ending at ends ⊢
      exact .rebroadcast ends
  | stop => exact .stop gate

/-- A rebroadcast is done only if it was asked for. -/
def Call.Due (deeds : List Deed) : Call → Prop
  | .rebroadcast task => ∃ deed ∈ deeds, .schedule task ∈ deed.effects
  | _ => True

/-- The deeds of a fresh gate that is called again and again, and the gate in the end. -/
inductive Run (settings : Settings) (window : UInt64) : List Deed → Gate → Prop
  | start : Run settings window [] (.initial window)
  | next {deeds : List Deed} {gate : Gate} (run : Run settings window deeds gate) (call : Call)
    (due : call.Due deeds)
    : Run settings window (deeds ++ [call.deed settings gate]) (call.deed settings gate).after

theorem Run.done {settings : Settings} {window : UInt64} {deeds : List Deed} {gate : Gate}
    (run : Run settings window deeds gate)
    : ∀ deed ∈ deeds, deed.Done settings := by
  induction run with
  | start => simp
  | next _ call _ ih =>
      exact List.forall_mem_append.mpr ⟨ih, List.forall_mem_singleton.mpr (call.done settings _)⟩

theorem Run.due {settings : Settings} {window : UInt64} {deeds : List Deed} {gate : Gate}
    (run : Run settings window deeds gate)
    : ∀ deed ∈ deeds, deed.call.Due deeds := by
  have later {call : Call} {earlier : List Deed} (deed : Deed) (due : call.Due earlier)
      : call.Due (earlier ++ [deed]) := by
    cases call with
    | rebroadcast task =>
        obtain ⟨asking, member, asks⟩ := due
        exact ⟨asking, List.mem_append_left _ member, asks⟩
    | vote _ _ | switch _ _ | receive _ | stop => trivial
  induction run with
  | start => simp
  | next _ call due ih =>
      refine List.forall_mem_append.mpr ⟨fun deed member => later _ (ih deed member), ?_⟩
      exact List.forall_mem_singleton.mpr (later _ due)

end Gate

end Quorum
