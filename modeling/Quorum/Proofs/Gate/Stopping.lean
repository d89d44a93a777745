import Quorum.Proofs.Agreement.Round

/-! Stopping a gate for good. A stop may come in between any two steps of the work under way. From
then on no step has an effect on the surroundings, and work that is begun later leaves the gate as
it is.
-/

namespace Quorum

/-- The effect does nothing to the surroundings: it counts, or asks for work to be done later. -/
def Effect.Quiet : Effect → Prop
  | .send _ _ | .surface _ | .commit _ _ => False
  | .count _ _ | .schedule _ => True

namespace Gate

-----------------------------------------------------------------------------------------
-- Rules for single steps
-----------------------------------------------------------------------------------------

namespace Activity

variable {α β : Type} {meant : Gate → Prop} {rule : Gate → Gate → List Effect → Prop}

/-- Whatever was done in between, each step follows the rule if it finds a gate that is meant. -/
def Heeds (meant : Gate → Prop) (rule : Gate → Gate → List Effect → Prop) : Activity α → Prop
  | done _ => True
  | step act next =>
      ∀ gate, meant gate →
        rule gate (act gate).2.1 (act gate).2.2 ∧ Heeds meant rule (next (act gate).1)

theorem heeds_pure (value : α) : Heeds meant rule (pure value) := trivial

/-- An activity that heeds a rule may go on with any that does. -/
theorem Heeds.bind {activity : Activity α} {continuation : α → Activity β}
    (first : activity.Heeds meant rule) (rest : ∀ value, (continuation value).Heeds meant rule)
    : (activity >>= continuation).Heeds meant rule := by
  change (activity.bind continuation).Heeds meant rule
  induction activity with
  | done value => exact rest value
  | step act next ih =>
      intro gate meets
      obtain ⟨follows, later⟩ := first gate meets
      exact ⟨follows, ih _ later⟩

theorem Heeds.discard {activity : Activity α} (heeds : activity.Heeds meant rule)
    : Heeds meant rule (discard activity) :=
  heeds.bind fun _ => trivial

theorem heeds_perform {act : Gate → α × Gate × List Effect}
    (follows : ∀ gate, meant gate → rule gate (act gate).2.1 (act gate).2.2)
    : Heeds meant rule (perform act) :=
  fun gate meets => ⟨follows gate meets, trivial⟩

/-- What is done after a look may rely on what was seen. -/
theorem heeds_observe_bind {view : Gate → α} {continuation : α → Activity β}
    (idle : ∀ gate, rule gate gate [])
    (rest : ∀ gate, meant gate → (continuation (view gate)).Heeds meant rule)
    : (observe view >>= continuation).Heeds meant rule :=
  fun gate meets => ⟨idle gate, rest gate meets⟩

end Activity

open Activity

-----------------------------------------------------------------------------------------
-- Steps that respect a stop
-----------------------------------------------------------------------------------------

/-- The phase tells whether the gate is stopped. -/
def Candid (gate : Gate) : Prop :=
  gate.phase = .stopped ↔ gate.stopped = true

theorem candid_initial (window : UInt64) : (initial window).Candid := by
  simp [Candid, initial]

/-- The phase goes on telling of a stop, and a stopped gate stays so and does nothing to its
surroundings.
-/
structure Respects (gate later : Gate) (effects : List Effect) : Prop where
  candid : gate.Candid → later.Candid
  final : gate.stopped = true → later.stopped = true ∧ ∀ effect ∈ effects, effect.Quiet

section

variable {gate later : Gate} {effects : List Effect}

theorem Candid.congr (candid : gate.Candid) (phase : later.phase = gate.phase)
    (stopped : later.stopped = gate.stopped)
    : later.Candid := by
  rw [Candid, phase, stopped]
  exact candid

theorem respects_of_same (phase : later.phase = gate.phase)
    (stopped : later.stopped = gate.stopped) (quiet : ∀ effect ∈ effects, effect.Quiet)
    : Respects gate later effects :=
  ⟨fun candid => candid.congr phase stopped, fun halted => ⟨stopped.trans halted, quiet⟩⟩

theorem respects_refl (gate : Gate) : Respects gate gate [] :=
  respects_of_same rfl rfl (by simp)

/-- A gate that is not stopped may have any effect. -/
theorem respects_of_live (live : gate.stopped = false) (candid : gate.Candid → later.Candid)
    : Respects gate later effects :=
  ⟨candid, fun halted => by cases live.symm.trans halted⟩

theorem Candid.enter (candid : gate.Candid) {phase : Phase} (moving : phase ≠ .stopped)
    : (gate.enter phase).Candid := by
  unfold Gate.enter
  split
  · exact candid
  · next running =>
      have live : gate.stopped ≠ true := mt candid.mpr running
      exact ⟨fun same => absurd same moving, fun halted => absurd halted live⟩

theorem stopped_enter (phase : Phase) (gate : Gate)
    : (gate.enter phase).stopped = gate.stopped := by
  unfold Gate.enter
  split <;> rfl

theorem respects_enter {phase : Phase} (moving : phase ≠ .stopped) (gate : Gate)
    : Respects gate (gate.enter phase) [] :=
  ⟨fun candid => candid.enter moving,
    fun halted => ⟨(stopped_enter phase gate).trans halted, by simp⟩⟩

theorem Candid.record (candid : gate.Candid) (outcome : Outcome)
    : (gate.record outcome).1.Candid := by
  unfold Gate.record
  simp only
  split
  · exact candid.enter nofun
  · exact candid

end

/-- Each step respects a stop, whatever gate it finds. -/
abbrev Yields {α : Type} (activity : Activity α) : Prop :=
  activity.Heeds (fun _ => True) Respects

section

variable {α β : Type}

theorem yields_observe (view : Gate → α) : Yields (observe view) :=
  heeds_perform fun gate _ => respects_refl gate

theorem yields_modify {change : Gate → Gate} (respects : ∀ gate, Respects gate (change gate) [])
    : Yields (modify change) :=
  heeds_perform fun gate _ => respects gate

theorem yields_enter {phase : Phase} (moving : phase ≠ .stopped)
    : Yields (modify (enter phase)) :=
  yields_modify (respects_enter moving)

theorem yields_emit {effects : List Effect} (quiet : ∀ effect ∈ effects, effect.Quiet)
    : Yields (emit effects) :=
  heeds_perform fun _ _ => respects_of_same rfl rfl quiet

theorem yields_send (peers : List Peer) (votes : List Vote) : Yields (send peers votes) := by
  refine heeds_perform fun gate _ => ?_
  cases halted : gate.stopped with
  | true => exact respects_of_same rfl rfl (by simp)
  | false => exact respects_of_live halted id

theorem quiet_intakeCounts (intake : Intake) : ∀ effect ∈ intakeCounts intake, effect.Quiet := by
  unfold intakeCounts
  refine List.forall_mem_append.mpr ⟨?_, ?_⟩ <;> split <;> simp [Effect.Quiet]

theorem yields_poll (round : Round) (votes : List Vote) (electorate : Electorate)
    : Yields (poll round votes electorate) :=
  heeds_perform fun _ _ => respects_of_same rfl rfl (quiet_intakeCounts _)

theorem yields_report (outcome : Outcome) : Yields (report outcome) := by
  unfold report
  refine (yields_observe _).bind fun current => ?_
  split
  · exact heeds_pure _
  · refine heeds_perform fun gate _ => ?_
    unfold surface
    cases halted : gate.stopped with
    | true => exact respects_refl gate
    | false => exact respects_of_live halted fun candid => candid.record outcome

/-- To move on to a round changes neither the phase nor whether the gate is stopped. -/
theorem yields_move (round : Round) (electorate : Electorate) {continuation : Activity α}
    (rest : Yields continuation)
    : Yields (do
        modify (advance round)
        modify (forget round)
        modify (adopt round electorate)
        continuation) := by
  refine Heeds.bind (yields_modify fun _ => respects_of_same rfl rfl (by simp)) fun _ => ?_
  refine Heeds.bind (yields_modify fun _ => respects_of_same rfl rfl (by simp)) fun _ => ?_
  refine Heeds.bind (yields_modify fun gate => ?_) fun _ => rest
  unfold adopt
  split
  · exact respects_of_same rfl rfl (by simp)
  · exact respects_refl gate

theorem yields_keepVote (round : Round) (vote : Vote) : Yields (perform (keepVote round vote)) := by
  refine heeds_perform fun gate _ => ?_
  unfold keepVote
  split
  · exact respects_refl gate
  · exact respects_of_same rfl rfl (by simp)

theorem yields_cast (settings : Settings) (round : Round) (vote : Vote) (electorate : Electorate)
    : Yields (cast settings round vote electorate) := by
  have sent (peers : List Peer)
      : Yields (do
          send peers [vote]
          if 0 < settings.rebroadcasts ∧ peers ≠ [] then
            emit [.schedule ⟨round, vote, peers⟩]
          return (.ok () : Except Fault Unit)) := by
    refine (yields_send peers [vote]).bind fun _ => ?_
    split
    · exact (yields_emit (by simp [Effect.Quiet])).bind fun _ => heeds_pure _
    · exact heeds_pure _
  unfold Gate.cast
  refine (yields_keepVote round vote).bind fun new => ?_
  split
  · refine yields_move round electorate ?_
    refine (yields_enter (by simp)).bind fun _ => ?_
    refine (yields_poll round [vote] electorate).bind fun found => ?_
    cases found with
    | none => exact sent _
    | some outcome => exact (yields_report outcome).bind fun _ => sent _
  · exact heeds_pure _

theorem yields_vote (settings : Settings) (candidate : Candidate) (electorate : Electorate)
    : Yields (vote settings candidate electorate) := by
  unfold vote
  refine (yields_observe _).bind fun stopped => ?_
  split
  · exact heeds_pure _
  refine (yields_observe _).bind fun stale => ?_
  split
  · exact heeds_pure _
  refine (yields_observe _).bind fun closed => ?_
  split
  · exact heeds_pure _
  cases settings.credentials.sign candidate with
  | error fault => exact heeds_pure _
  | ok vote => exact yields_cast settings _ vote electorate

theorem yields_recordSwitch (outcome : Outcome) : Yields (perform (recordSwitch outcome)) := by
  refine heeds_perform fun gate _ => ?_
  unfold recordSwitch
  cases halted : gate.stopped with
  | true => exact respects_refl gate
  | false => exact respects_of_live halted fun candid => candid.record outcome

theorem yields_enterRound (round : Round) (electorate : Electorate)
    : Yields (enterRound round electorate) := by
  unfold enterRound
  refine yields_move round electorate ?_
  refine Heeds.bind (heeds_perform fun _ _ => respects_of_same rfl rfl (by simp)) fun ruling => ?_
  split
  · refine (yields_recordSwitch _).bind fun recorded => ?_
    split <;> exact heeds_pure _
  · exact (yields_enter (by simp)).bind fun _ => heeds_pure _
  · exact (yields_enter (by simp)).bind fun _ => heeds_pure _

theorem yields_switch (round : Round) (peers : List Peer) : Yields (switch round peers) := by
  unfold switch
  refine (yields_observe _).bind fun stopped => ?_
  split
  · exact heeds_pure _
  cases Roster.ofPeers peers with
  | error fault => exact heeds_pure _
  | ok roster => exact yields_enterRound round ⟨roster, none⟩

theorem yields_answer (round : Round) (votes : List Vote) : Yields (answer round votes) := by
  unfold answer
  refine (yields_observe _).bind fun decision => ?_
  cases decision with
  | none => exact heeds_pure _
  | some decision =>
      refine (yields_observe _).bind fun electorate => ?_
      cases electorate with
      | none => exact heeds_pure _
      | some electorate =>
          simp only
          split
          · exact heeds_pure _
          · exact yields_send _ _

theorem yields_startDeciding (round : Round) : Yields (modify (startDeciding round)) := by
  refine yields_modify fun gate => ?_
  unfold startDeciding
  split
  · next waiting =>
      have running : gate.phase ≠ .stopped := by
        rcases waiting with phase | phase <;> simp [phase]
      refine ⟨fun candid => ?_, fun halted => ⟨halted, by simp⟩⟩
      have live : gate.stopped ≠ true := mt candid.mpr running
      exact ⟨nofun, fun halted => absurd halted live⟩
  · exact respects_refl gate

theorem yields_collect (round : Round) (votes : List Vote) : Yields (collect round votes) := by
  have reported {next : Option Outcome → Activity Unit} (none_yields : Yields (next none))
      (some_yields : ∀ outcome, Yields (next (some outcome))) (admitted : List Vote)
      (electorate : Electorate)
      : Yields (poll round admitted electorate >>= next) := by
    refine (yields_poll round admitted electorate).bind fun found => ?_
    cases found with
    | none => exact none_yields
    | some outcome => exact some_yields outcome
  unfold collect
  refine (yields_observe _).bind ?_
  rintro ⟨current, known⟩
  cases known with
  | none => exact heeds_pure _
  | some electorate =>
      simp only
      split
      · split
        · exact (yields_startDeciding round).bind fun _ =>
            reported (heeds_pure _) (fun outcome => yields_report outcome) _ _
        · exact reported (heeds_pure _) (fun outcome => yields_report outcome) _ _
      · exact heeds_pure _

theorem yields_receive (settings : Settings) (votes : List Vote)
    : Yields (receive settings votes) := by
  have dropped : Yields (emit [.count .bundlesDropped 1]) := yields_emit (by simp [Effect.Quiet])
  unfold receive
  refine (yields_observe _).bind fun stopped => ?_
  split
  · exact heeds_pure _
  cases Bundle.round votes with
  | error defect => exact dropped
  | ok round =>
      simp only
      split
      · exact dropped
      · refine (yields_observe _).bind fun closed => ?_
        split
        · exact yields_answer round votes
        · exact yields_collect round votes

theorem quiet_arrivalCounts (votes : List Vote)
    : ∀ effect ∈ arrivalCounts votes, effect.Quiet := by
  unfold arrivalCounts
  refine List.forall_mem_cons.mpr ⟨trivial, ?_⟩
  split <;> simp [Effect.Quiet]

theorem yields_deliver (settings : Settings) (votes : List Vote)
    : Yields (deliver settings votes) := by
  unfold deliver
  refine (yields_emit (quiet_arrivalCounts votes)).bind fun _ => ?_
  split
  · exact (yields_receive settings votes).bind fun _ => heeds_pure _
  · exact heeds_pure _

theorem yields_rebroadcast (task : Rebroadcast) : Yields (rebroadcast task) := by
  unfold rebroadcast
  refine (yields_observe _).bind fun stopped => ?_
  split
  · exact heeds_pure _
  refine (yields_observe _).bind fun closed => ?_
  split
  · exact heeds_pure _
  refine (yields_observe _).bind fun spent => ?_
  split
  · exact heeds_pure _
  · exact (yields_send _ _).bind fun _ => heeds_pure _

theorem yields_stop : Yields stop := by
  refine yields_modify fun gate => ?_
  split
  · exact respects_refl gate
  · exact ⟨fun _ => ⟨fun _ => rfl, fun _ => rfl⟩, fun _ => ⟨rfl, by simp⟩⟩

end

/-- All work on a gate respects a stop, wherever it falls. -/
theorem Request.yields (settings : Settings) (request : Request)
    : Yields (request.activity settings) := by
  cases request with
  | vote candidate electorate => exact (yields_vote settings candidate electorate).discard
  | switch round peers => exact (yields_switch round peers).discard
  | deliver votes => exact (yields_deliver settings votes).discard
  | rebroadcast task => exact (yields_rebroadcast task).discard
  | stop => exact yields_stop

-----------------------------------------------------------------------------------------
-- Work on a stopped gate
-----------------------------------------------------------------------------------------

/-- As long as the gate is stopped, no step changes it. -/
abbrev Idles {α : Type} (activity : Activity α) : Prop :=
  activity.Heeds (fun gate => gate.stopped = true) fun gate later _ => later = gate

section

variable {α : Type}

/-- Work that looks first whether the gate is stopped, and then gives up, changes nothing. -/
theorem idles_of_look {continuation : Bool → Activity α} (quits : Idles (continuation true))
    : Idles (observe (·.stopped) >>= continuation) := by
  refine heeds_observe_bind (fun _ => rfl) fun gate halted => ?_
  rw [halted]
  exact quits

theorem idles_vote (settings : Settings) (candidate : Candidate) (electorate : Electorate)
    : Idles (vote settings candidate electorate) :=
  idles_of_look (heeds_pure _)

theorem idles_switch (round : Round) (peers : List Peer) : Idles (switch round peers) :=
  idles_of_look (heeds_pure _)

theorem idles_receive (settings : Settings) (votes : List Vote) : Idles (receive settings votes) :=
  idles_of_look (heeds_pure _)

theorem idles_deliver (settings : Settings) (votes : List Vote)
    : Idles (deliver settings votes) := by
  unfold deliver
  refine Heeds.bind (heeds_perform fun _ _ => rfl) fun _ => ?_
  split
  · exact (idles_receive settings votes).bind fun _ => heeds_pure _
  · exact heeds_pure _

theorem idles_rebroadcast (task : Rebroadcast) : Idles (rebroadcast task) :=
  idles_of_look (heeds_pure _)

theorem idles_stop : Idles stop :=
  heeds_perform fun _ halted => if_pos halted

end

/-- Work that is begun on a stopped gate changes nothing. -/
theorem Request.idles (settings : Settings) (request : Request)
    : Idles (request.activity settings) := by
  cases request with
  | vote candidate electorate => exact (idles_vote settings candidate electorate).discard
  | switch round peers => exact (idles_switch round peers).discard
  | deliver votes => exact (idles_deliver settings votes).discard
  | rebroadcast task => exact (idles_rebroadcast task).discard
  | stop => exact idles_stop

-----------------------------------------------------------------------------------------
-- Sessions
-----------------------------------------------------------------------------------------

/-- Does the next steps, as many as given, and tells what is left to do. -/
def Activity.walk {α : Type} : Nat → Activity α → Gate → Activity α × Gate × List Effect
  | count + 1, step act next, gate =>
      let (rest, later, effects) := (next (act gate).1).walk count (act gate).2.1
      (rest, later, (act gate).2.2 ++ effects)
  | _, activity, gate => (activity, gate, [])

namespace Session

/-- A step that some activity did. Activities are numbered in the order in which they were asked
for.
-/
structure Move where
  number : Nat
  before : Gate
  after : Gate
  effects : List Effect

/-- The moves of the next steps, as many as given, of an activity with a number. -/
def Move.row {α : Type} (number : Nat) : Nat → Activity α → Gate → List Move
  | count + 1, .step act next, gate =>
      ⟨number, gate, (act gate).2.1, (act gate).2.2⟩
        :: row number count (next (act gate).1) (act gate).2.1
  | _, _, _ => []

/-- The moves, one after the other, that lead from one session to another. -/
inductive Path (settings : Settings) (permits : Request → Prop) (session : Session)
    : List Move → Session → Prop
  | start : Path settings permits session [] session
  | ask {moves : List Move} {later : Session} (path : Path settings permits session moves later)
    (request : Request) (permitted : permits request)
    : Path settings permits session moves
        { later with underWay := request.activity settings :: later.underWay }
  | proceed {β : Type} {moves : List Move} {gate : Gate} {before after : List (Activity Unit)}
    {log : List Effect} (act : Gate → β × Gate × List Effect) (next : β → Activity Unit)
    (path : Path settings permits session moves ⟨gate, before ++ .step act next :: after, log⟩)
    : Path settings permits session
        (moves ++ [⟨after.length, gate, (act gate).2.1, (act gate).2.2⟩])
        ⟨(act gate).2.1, before ++ next (act gate).1 :: after, log ++ (act gate).2.2⟩

section

variable {settings : Settings} {window : UInt64} {permits : Request → Prop}
  {session later : Session} {moves : List Move}

theorem Reachable.path (reachable : Reachable settings window permits session)
    (path : Path settings permits session moves later)
    : Reachable settings window permits later := by
  induction path with
  | start => exact reachable
  | ask _ request permitted ih => exact ih.next (.ask request permitted)
  | proceed act next _ ih => exact ih.next (.proceed act next)

/-- An activity that is under way may do some steps in a row. -/
theorem Path.row (count : Nat) {activity : Activity Unit} {gate : Gate}
    (before : List (Activity Unit)) {after : List (Activity Unit)} {log : List Effect}
    (path : Path settings permits session moves ⟨gate, before ++ activity :: after, log⟩)
    : Path settings permits session (moves ++ Move.row after.length count activity gate)
        ⟨(activity.walk count gate).2.1, before ++ (activity.walk count gate).1 :: after,
          log ++ (activity.walk count gate).2.2⟩ := by
  induction count generalizing activity gate log moves with
  | zero => simpa [Activity.walk, Move.row] using path
  | succ count ih =>
      cases activity with
      | done value => simpa [Activity.walk, Move.row] using path
      | step act next =>
          have walked := ih (path.proceed act next)
          rwa [List.append_assoc, List.append_assoc] at walked

theorem Path.walk (count : Nat) {activity : Activity Unit} {gate : Gate}
    (before : List (Activity Unit)) {after : List (Activity Unit)} {log : List Effect}
    (path : Path settings permits session moves ⟨gate, before ++ activity :: after, log⟩)
    : let (rest, stepped, effects) := activity.walk count gate
      ∃ more,
        Path settings permits session (moves ++ more)
          ⟨stepped, before ++ rest :: after, log ++ effects⟩ :=
  ⟨_, path.row count before⟩

/-- In every session the phase tells of a stop, and all work under way respects it. -/
theorem Reachable.yields (reachable : Reachable settings window permits session)
    : session.gate.Candid ∧ ∀ activity ∈ session.underWay, Yields activity := by
  induction reachable with
  | start => exact ⟨candid_initial window, by simp⟩
  | next _ step ih =>
      obtain ⟨candid, underWay⟩ := ih
      cases step with
      | ask request _ =>
          exact ⟨candid, List.forall_mem_cons.mpr ⟨request.yields settings, underWay⟩⟩
      | @proceed β gate before after log act next =>
          obtain ⟨respects, rest⟩ := underWay (.step act next) (by simp) gate trivial
          exact ⟨respects.candid candid, Activity.forall_mem_replace underWay rest⟩

theorem stopped_run_stop (gate : Gate) : (stop.run gate).2.1.stopped = true := by
  rw [stop, run_modify]
  split <;> simp [*]

/-- The gate is stopped for good. All work under way respects that, and what was begun since then,
which comes first, changes nothing.
-/
structure AtRest (count : Nat) (session : Session) : Prop where
  halted : session.gate.stopped = true
  candid : session.gate.Candid
  yields : ∀ activity ∈ session.underWay, Yields activity
  idles
    : ∃ newer older,
        session.underWay = newer ++ older ∧ older.length = count
        ∧ ∀ activity ∈ newer, Idles activity

theorem Reachable.atRest (reachable : Reachable settings window permits session)
    (halted : session.gate.stopped = true)
    : session.AtRest session.underWay.length where
  halted := halted
  candid := reachable.yields.1
  yields := reachable.yields.2
  idles := ⟨[], session.underWay, rfl, rfl, by simp⟩

theorem AtRest.ask {count : Nat} (rests : session.AtRest count) (request : Request)
    : { session with underWay := request.activity settings :: session.underWay }.AtRest count := by
  obtain ⟨newer, older, split, length, idle⟩ := rests.idles
  refine ⟨rests.halted, rests.candid, ?_, request.activity settings :: newer, older, ?_, length, ?_⟩
  · exact List.forall_mem_cons.mpr ⟨request.yields settings, rests.yields⟩
  · rw [split, List.cons_append]
  · exact List.forall_mem_cons.mpr ⟨request.idles settings, idle⟩

/-- An entry of a list in two parts is in the one or in the other. -/
theorem split_around.{u} {β : Type u} {before after newer older : List β} {entry : β}
    (split : before ++ entry :: after = newer ++ older)
    : (∃ middle, newer = before ++ entry :: middle ∧ after = middle ++ older)
      ∨ ∃ middle, before = newer ++ middle ∧ older = middle ++ entry :: after := by
  rcases List.append_eq_append_iff.mp split with ⟨middle, rfl, tail⟩ | ⟨middle, rfl, tail⟩
  · cases middle with
    | nil => exact .inr ⟨[], by simp, tail.symm⟩
    | cons first middle =>
        obtain ⟨rfl, rfl⟩ := List.cons.inj tail
        exact .inl ⟨middle, rfl, rfl⟩
  · exact .inr ⟨middle, rfl, tail⟩

/-- A step leaves the session at rest and the surroundings alone, and work that was begun since the
stop leaves the gate as it is.
-/
theorem AtRest.proceed {count : Nat} {β : Type} {gate : Gate} {before after : List (Activity Unit)}
    {log : List Effect} {act : Gate → β × Gate × List Effect} {next : β → Activity Unit}
    (rests : AtRest count ⟨gate, before ++ .step act next :: after, log⟩)
    : AtRest count ⟨(act gate).2.1, before ++ next (act gate).1 :: after, log ++ (act gate).2.2⟩
      ∧ (∀ effect ∈ (act gate).2.2, effect.Quiet)
      ∧ (count ≤ after.length → (act gate).2.1 = gate) := by
  obtain ⟨respects, rest⟩ := rests.yields (.step act next) (by simp) gate trivial
  obtain ⟨halted, quiet⟩ := respects.final rests.halted
  obtain ⟨newer, older, split, rfl, idle⟩ := rests.idles
  have yields := Activity.forall_mem_replace rests.yields rest
  have candid := respects.candid rests.candid
  rcases split_around split with ⟨middle, rfl, rfl⟩ | ⟨middle, rfl, rfl⟩
  · obtain ⟨still, idle_rest⟩ := idle (.step act next) (by simp) gate rests.halted
    refine ⟨⟨halted, candid, yields, before ++ next (act gate).1 :: middle, older, ?_, rfl, ?_⟩,
      quiet, fun _ => still⟩
    · simp
    · exact Activity.forall_mem_replace idle idle_rest
  · refine ⟨⟨halted, candid, yields, newer, middle ++ next (act gate).1 :: after, ?_, ?_, idle⟩,
      quiet, ?_⟩
    · simp
    · simp
    · intro new
      rw [List.length_append, List.length_cons] at new
      omega

/-- Once the gate is stopped, the session stays at rest; by induction on the path. -/
theorem AtRest.path {count : Nat} (rests : session.AtRest count)
    (path : Path settings permits session moves later)
    : later.AtRest count
      ∧ ∀ move ∈ moves,
          move.after.phase = .stopped ∧ (∀ effect ∈ move.effects, effect.Quiet)
          ∧ (count ≤ move.number → move.after = move.before) := by
  induction path with
  | start => exact ⟨rests, by simp⟩
  | ask _ request _ ih => exact ⟨ih.1.ask request, ih.2⟩
  | proceed act next _ ih =>
      obtain ⟨resting, earlier⟩ := ih
      obtain ⟨resting_after, quiet, still⟩ := resting.proceed
      have phase := resting_after.candid.mpr resting_after.halted
      refine ⟨resting_after, List.forall_mem_append.mpr ⟨earlier, ?_⟩⟩
      exact List.forall_mem_singleton.mpr ⟨phase, quiet, still⟩

/-- A stop is final, wherever it falls among the steps of the work under way. From then on the phase
tells of it, no step sends a bundle, surfaces an outcome or hands over a block, and the steps of what
is asked for after the stop leave the gate as it is.
-/
theorem stop_final {gate : Gate} {before after : List (Activity Unit)} {log : List Effect}
    (reachable : Reachable settings window permits ⟨gate, before ++ stop :: after, log⟩)
    (path
      : Path settings permits ⟨(stop.run gate).2.1, before ++ pure () :: after, log⟩ moves later)
    : later.gate.phase = .stopped
      ∧ ∀ move ∈ moves,
          move.after.phase = .stopped ∧ (∀ effect ∈ move.effects, effect.Quiet)
          ∧ (before.length + 1 + after.length ≤ move.number → move.after = move.before) := by
  have stopping
      : Reachable settings window permits
          ⟨(stop.run gate).2.1, before ++ pure () :: after, log ++ []⟩ :=
    reachable.next (.proceed _ .done)
  rw [List.append_nil] at stopping
  obtain ⟨resting, moved⟩ := (stopping.atRest (stopped_run_stop gate)).path path
  refine ⟨resting.candid.mpr resting.halted, fun move member => ?_⟩
  obtain ⟨phase, quiet, still⟩ := moved move member
  refine ⟨phase, quiet, fun later => still ?_⟩
  simp only [List.length_append, List.length_cons]
  omega

/-- A stop falls between two steps of a vote. That vote is kept, but goes no further, and one that is
asked for after the stop is refused.
-/
theorem stop_final_amid_vote
    : ∃ (gate : Gate) (voting : Activity Unit) (moves : List Move) (later : Session),
        Reachable (.numbered 1) 10 (fun _ => True) ⟨gate, [] ++ stop :: [voting], []⟩
        ∧ Path (.numbered 1) (fun _ => True) ⟨(stop.run gate).2.1, [] ++ pure () :: [voting], []⟩
            moves later
        ∧ gate.ownVotes = [] ∧ later.gate.ownVotes.length = 1 ∧ later.gate.phase = .stopped := by
  let request : Request := .vote (.numbered 1) ⟨.four, none⟩
  have asked
      : Path (.numbered 1) (fun _ => True) ⟨.initial 10, [], []⟩ []
          ⟨.initial 10, [] ++ request.activity (.numbered 1) :: [], []⟩ :=
    .ask .start request trivial
  obtain ⟨_, begun⟩ := Path.walk 1 [] asked
  have reachable := (Reachable.start.path begun).next (.ask .stop trivial)
  obtain ⟨_, kept⟩ := Path.walk 3 [pure ()] (@Path.start (.numbered 1) (fun _ => True) ⟨_, _, _⟩)
  obtain ⟨_, refused⟩ := Path.walk 1 [] (kept.ask request trivial)
  have stopped := @stop_final _ _ _ _ _ _ [] _ _ reachable refused
  exact ⟨_, _, _, _, reachable, refused, rfl, rfl, stopped.1⟩

end

end Session

end Gate

end Quorum
