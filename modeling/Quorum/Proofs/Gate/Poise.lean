import Quorum.Proofs.Gate.Composition

/-! The poise of a gate. Among any steps of any work, the polls only grow, and neither the round that
a gate consults its electorate for nor a decided one is ahead of the current round. A step may rely on
how far the polls had come when its own activity did its last step.
-/

namespace Quorum.Gate

open Activity

-----------------------------------------------------------------------------------------
-- Gates
-----------------------------------------------------------------------------------------

/-- The gate is not ahead of its polls. -/
structure Poised (gate : Gate) : Prop where
  round : gate.round ≤ gate.book.current
  decided
    : ∀ {round outcome}, gate.book.decision round = some outcome → round ≤ gate.book.current
  trimmed : gate.book.Trimmed

namespace Poised

variable {gate later : Gate}

theorem initial (window : UInt64) : (Gate.initial window).Poised where
  round := Round.le_refl _
  decided known := nomatch known
  trimmed := .empty window

theorem congr (poised : gate.Poised) (round : later.round = gate.round)
    (book : later.book = gate.book)
    : later.Poised where
  round := by rw [round, book]; exact poised.round
  decided := by rw [book]; exact poised.decided
  trimmed := book ▸ poised.trimmed

/-- Polls that grow take the poise along, if what they decide is not ahead. -/
theorem grow (poised : gate.Poised) (round : later.round = gate.round)
    (grows : gate.book.Grows later.book) (trimmed : later.book.Trimmed)
    (new
      : ∀ {round outcome}, gate.book.decision round = none →
          later.book.decision round = some outcome → round ≤ later.book.current)
    : later.Poised where
  round := round ▸ Round.le_trans poised.round grows.current
  decided {decided outcome} known := by
    cases before : gate.book.decision decided with
    | none => exact new before known
    | some earlier => exact Round.le_trans (poised.decided before) grows.current
  trimmed := trimmed

theorem advance (poised : gate.Poised) (round : Round) : (gate.advance round).Poised :=
  poised.grow rfl (.advance gate.book round) (poised.trimmed.advance round)
    fun before known =>
      nomatch (PollBook.decision_advance_of_none before round).symm.trans known

theorem adopt (poised : gate.Poised) {round : Round} (reached : round ≤ gate.book.current)
    (electorate : Electorate)
    : (gate.adopt round electorate).Poised := by
  unfold Gate.adopt
  split
  · exact ⟨reached, poised.decided, poised.trimmed⟩
  · exact poised

theorem poll (poised : gate.Poised) (round : Round) (votes : List Vote) (electorate : Electorate)
    : Poised { gate with book := (gate.book.insert round votes (some electorate)).1 } :=
  poised.grow rfl (.insert ..) (poised.trimmed.insert round votes electorate) fun before known =>
    Round.le_trans (PollBook.decided_of_insert before known).2.1 (PollBook.Grows.insert ..).current

theorem evaluate (poised : gate.Poised) {round : Round} (reached : round ≤ gate.book.current)
    (electorate : Electorate)
    : Poised { gate with book := (gate.book.evaluate round electorate).1 } := by
  have trimmed := poised.trimmed.evaluate round electorate
  refine poised.grow rfl (.evaluate ..) trimmed fun before known => ?_
  obtain ⟨rfl, -⟩ := PollBook.decided_of_evaluate rfl before known
  exact Round.le_trans reached (PollBook.Grows.evaluate ..).current

end Poised

-----------------------------------------------------------------------------------------
-- Steps that rely on their predecessors
-----------------------------------------------------------------------------------------

namespace Activity

variable {α β : Type} {floor : Round}

/-- From polls that have come to the floor, each step keeps the poise and lets the polls grow, and
the next one may rely on how far these have come.
-/
def Treads : Activity α → Round → Prop
  | done _, _ => True
  | step act next, floor =>
      ∀ gate, gate.Poised → floor ≤ gate.book.current →
        (act gate).2.1.Poised ∧ gate.book.Grows (act gate).2.1.book
        ∧ Treads (next (act gate).1) (act gate).2.1.book.current

theorem Treads.raise {activity : Activity α} {higher : Round} (treads : activity.Treads floor)
    (reached : floor ≤ higher)
    : activity.Treads higher := by
  cases activity with
  | done _ => trivial
  | step act next =>
      exact fun gate poised found => treads gate poised (Round.le_trans reached found)

theorem Treads.bind {activity : Activity α} {continuation : α → Activity β}
    (treads : activity.Treads floor) (rest : ∀ value floor, (continuation value).Treads floor)
    : (activity >>= continuation).Treads floor := by
  change (activity.bind continuation).Treads floor
  induction activity generalizing floor with
  | done value => exact rest value floor
  | step act next ih =>
      intro gate poised found
      obtain ⟨kept, grows, later⟩ := treads gate poised found
      exact ⟨kept, grows, ih _ later⟩

theorem treads_plain {act : Gate → β × Gate × List Effect} {next : β → Activity α}
    (round : ∀ gate, (act gate).2.1.round = gate.round)
    (book : ∀ gate, (act gate).2.1.book = gate.book)
    (rest : ∀ value floor, (next value).Treads floor)
    : (step act next).Treads floor := by
  intro gate poised _
  exact ⟨poised.congr (round gate) (book gate), book gate ▸ .refl _, rest _ _⟩

/-- What comes after a move to a round may rely on the polls having come there. -/
theorem treads_move (round : Round) (electorate : Electorate) {next : Unit → Activity α}
    (rest : ∀ floor, round ≤ floor → (next ()).Treads floor)
    : Treads (do
        modify (advance round)
        modify (forget round)
        modify (adopt round electorate) >>= next) floor := by
  intro gate poised _
  refine ⟨poised.advance round, .advance gate.book round, ?_⟩
  intro forgetting poised found
  have reached : round ≤ forgetting.book.current :=
    Round.le_trans (Round.not_lt.mp (gate.book.not_current_lt_advance round)) found
  refine ⟨poised.congr rfl rfl, .refl _, ?_⟩
  intro adopting poised found
  have reached := Round.le_trans reached found
  have book : (adopting.adopt round electorate).book = adopting.book := by
    unfold adopt
    split <;> rfl
  exact ⟨poised.adopt reached electorate, book ▸ .refl _, rest _ (book ▸ reached)⟩

end Activity

theorem rephased_surface (outcome : Outcome) (gate : Gate)
    : Rephased gate (surface outcome gate).2.1 := by
  unfold surface
  split
  · exact .refl gate
  · exact rephased_record outcome gate

theorem rephased_recordSwitch (outcome : Outcome) (gate : Gate)
    : Rephased gate (recordSwitch outcome gate).2.1 := by
  unfold recordSwitch
  split
  · exact .refl gate
  · exact rephased_record outcome gate

section

variable {α : Type} {floor : Round}

theorem treads_enter (phase : Phase) {next : Unit → Activity α}
    (rest : ∀ floor, (next ()).Treads floor)
    : (modify (enter phase) >>= next).Treads floor :=
  treads_plain (fun gate => (rephased_enter phase gate).round)
    (fun gate => (rephased_enter phase gate).book) fun _ => rest

theorem treads_report (outcome : Outcome) : (report outcome).Treads floor := by
  refine treads_plain (fun _ => rfl) (fun _ => rfl) fun current floor => ?_
  change Treads (if _ then _ else _) floor
  split
  · trivial
  · exact treads_plain (fun gate => (rephased_surface outcome gate).round)
      (fun gate => (rephased_surface outcome gate).book) fun _ _ => trivial

/-- The polls are evaluated for a round that they have come to. -/
theorem treads_enterRound (round : Round) (electorate : Electorate)
    : (enterRound round electorate).Treads floor := by
  refine treads_move round electorate fun floor reached gate poised found => ?_
  refine ⟨poised.evaluate (Round.le_trans reached found) electorate, .evaluate .., ?_⟩
  simp only [Activity.bind]
  split
  · refine treads_plain (fun gate => (rephased_recordSwitch _ gate).round)
      (fun gate => (rephased_recordSwitch _ gate).book) fun recorded floor => ?_
    change Treads (if _ then _ else _) floor
    split <;> trivial
  · exact treads_enter (.frozen round) fun _ => trivial
  · exact treads_enter (.voting round) fun _ => trivial

/-- All work on a gate treads so, from wherever the polls have come to. -/
theorem Activity.Composed.treads {activity : Activity α} (composed : activity.Composed)
    : activity.Treads floor := by
  induction composed generalizing floor with
  | done _ => trivial
  | plain round book _ _ ih => exact treads_plain round book fun value _ => ih value
  | move round electorate _ ih => exact treads_move round electorate fun _ _ => ih
  | @tally round votes electorate next _ _ telling _ ih ih' =>
      intro gate poised _
      refine ⟨poised.poll round votes electorate, .insert .., ?_⟩
      change Treads (next (gate.book.insert round votes (some electorate)).2.outcome) _
      cases (gate.book.insert round votes (some electorate)).2.outcome with
      | none => exact ih
      | some outcome =>
          rw [telling]
          exact (treads_report outcome).bind fun _ _ => ih' outcome
  | enter round electorate _ ih =>
      exact (treads_enterRound round electorate).bind fun result _ => ih result

end

-----------------------------------------------------------------------------------------
-- Sessions
-----------------------------------------------------------------------------------------

namespace Session

/-- The gate is poised, and what is under way relies on no more than the polls have come to. -/
structure Steady (session : Session) : Prop where
  gate : session.gate.Poised
  underWay : ∀ activity ∈ session.underWay, activity.Treads session.gate.book.current

theorem Steady.begin {session : Session} (steady : session.Steady) {activity : Activity Unit}
    (composed : activity.Composed)
    : (session.begin activity).Steady where
  gate := steady.gate
  underWay := List.forall_mem_cons.mpr ⟨composed.treads, steady.underWay⟩

/-- A step of one activity takes nothing from what the others rely on. -/
theorem Steady.proceed {β : Type} {gate : Gate} {before after : List (Activity Unit)}
    {log : List Effect} {act : Gate → β × Gate × List Effect} {next : β → Activity Unit}
    (steady : Steady ⟨gate, before ++ .step act next :: after, log⟩)
    : Steady ⟨(act gate).2.1, before ++ next (act gate).1 :: after, log ++ (act gate).2.2⟩
      ∧ gate.book.Grows (act gate).2.1.book := by
  have treads := steady.underWay (.step act next) (by simp)
  obtain ⟨poised, grows, rest⟩ := treads gate steady.gate (Round.le_refl _)
  have raised
      : ∀ activity ∈ before ++ .step act next :: after,
          activity.Treads (act gate).2.1.book.current :=
    fun activity member => (steady.underWay activity member).raise grows.current
  exact ⟨⟨poised, Activity.forall_mem_replace raised rest⟩, grows⟩

/-- One after the other, the moves keep the poise and let the polls grow up to the last gate. -/
structure Ordered (moves : List Move) (last : Gate) : Prop where
  poised : ∀ move ∈ moves, move.before.Poised ∧ move.after.Poised
  grows : ∀ move ∈ moves, move.before.book.Grows move.after.book
  onward : ∀ move ∈ moves, move.after.book.Grows last.book
  pairwise : moves.Pairwise fun earlier later => earlier.after.book.Grows later.before.book

theorem Ordered.snoc {moves : List Move} {move : Move} (ordered : Ordered moves move.before)
    (poised : move.before.Poised ∧ move.after.Poised)
    (grows : move.before.book.Grows move.after.book)
    : Ordered (moves ++ [move]) move.after where
  poised := List.forall_mem_append.mpr ⟨ordered.poised, List.forall_mem_singleton.mpr poised⟩
  grows := List.forall_mem_append.mpr ⟨ordered.grows, List.forall_mem_singleton.mpr grows⟩
  onward := by
    refine List.forall_mem_append.mpr ⟨fun earlier member => ?_, ?_⟩
    · exact (ordered.onward earlier member).trans grows
    · exact List.forall_mem_singleton.mpr (.refl _)
  pairwise := by
    refine List.pairwise_append.mpr ⟨ordered.pairwise, List.pairwise_singleton _ _, ?_⟩
    intro earlier member last same
    obtain rfl := List.mem_singleton.mp same
    exact ordered.onward earlier member

variable {settings : Settings} {window : UInt64} {permits : Request → Prop}
  {session later : Session} {moves : List Move}

/-- All that is asked for leaves a session steady; by induction on the path. -/
theorem Steady.path (steady : session.Steady) (path : Path settings permits session moves later)
    : later.Steady ∧ Ordered moves later.gate := by
  induction path with
  | start => exact ⟨steady, ⟨by simp, by simp, by simp, .nil⟩⟩
  | ask _ request _ ih => exact ⟨ih.1.begin (request.composed settings), ih.2⟩
  | proceed act next _ ih =>
      obtain ⟨steady, ordered⟩ := ih
      obtain ⟨kept, grows⟩ := steady.proceed
      exact ⟨kept, ordered.snoc ⟨steady.gate, kept.gate⟩ grows⟩

theorem steady_initial (window : UInt64) : Steady ⟨.initial window, [], []⟩ :=
  ⟨.initial window, by simp⟩

theorem Path.ordered (path : Path settings permits ⟨.initial window, [], []⟩ moves later)
    : Ordered moves later.gate :=
  ((steady_initial window).path path).2

theorem Reachable.steady (reachable : Reachable settings window permits session)
    : session.Steady := by
  induction reachable with
  | start => exact steady_initial window
  | next _ step ih =>
      cases step with
      | ask request _ => exact ih.begin (request.composed settings)
      | proceed act next => exact ih.proceed.1

end Session

-----------------------------------------------------------------------------------------
-- Runs
-----------------------------------------------------------------------------------------

theorem Activity.Treads.run {α : Type} {activity : Activity α} {floor : Round}
    (treads : activity.Treads floor) {gate : Gate} (poised : gate.Poised)
    (reached : floor ≤ gate.book.current)
    : (activity.run gate).2.1.Poised := by
  induction activity generalizing floor gate with
  | done value => exact poised
  | step act next ih =>
      obtain ⟨poised, -, rest⟩ := treads gate poised reached
      exact ih _ rest poised (Round.le_refl _)

/-- By induction on the calls. -/
theorem Run.poised {settings : Settings} {window : UInt64} {deeds : List Deed} {gate : Gate}
    (run : Run settings window deeds gate)
    : gate.Poised := by
  induction run with
  | start => exact .initial window
  | @next _ gate _ call _ ih =>
      exact (call.composed settings).treads.run ih (Round.le_refl gate.book.current)

end Quorum.Gate
