import Quorum.Gate

/-! The conductor of a node. It enters a round, casts the node's vote, waits for an outcome, and
moves on to the round that the outcome leads to.
-/

namespace Quorum

/-- What a conductor is about. -/
inductive Stage where
  /-- After a decision it waits until a moment, and then enters its round. -/
  | pausing (decision : Outcome) (wake : Nat)
  /-- It will switch the gate to its round. -/
  | entering
  /-- The gate has switched; it will vote. -/
  | voting (roster : Roster)
  /-- It waits for an outcome. -/
  | waiting
  /-- There is no next round. -/
  | failed (overflow : Overflow)
  | stopped

/-- The progress that is yet to come before the next round. -/
def Stage.weight : Stage → Nat
  | .pausing _ _ => 4
  | .entering => 3
  | .voting _ => 2
  | .waiting => 1
  | .failed _ | .stopped => 0

structure Conductor where
  settings : Gate.Settings
  peers : List Peer
  /-- What the node votes for. -/
  propose : Round → Candidate
  /-- The pause after a decided round. -/
  delay : Nat
  gate : Gate
  now : Nat
  /-- The round that it is in, or will enter next. -/
  round : Round
  stage : Stage
  /-- Outcomes that were found on entering a round. They come before those of the stream. -/
  pending : List Outcome
  /-- Outcomes that the gate surfaced. -/
  stream : List Outcome

namespace Conductor

def start (settings : Gate.Settings) (window : UInt64) (peers : List Peer)
    (propose : Round → Candidate) (delay : Nat)
    : Conductor :=
  { settings, peers, propose, delay, gate := .initial window, now := 0, round := ⟨1, 0⟩,
    stage := .entering, pending := [], stream := [] }

/-- The outcomes among effects. -/
def surfaced (effects : List Effect) : List Outcome :=
  effects.filterMap fun
    | .surface outcome => some outcome
    | _ => none

/-- Lets the gate do some work, and takes over what it surfaces. -/
def perform {α : Type} (conductor : Conductor) (activity : Gate.Activity α)
    : α × Conductor × List Effect :=
  let (value, gate, effects) := activity.run conductor.gate
  (value, { conductor with gate, stream := conductor.stream ++ surfaced effects }, effects)

/-- Hands a bundle from the network to the gate. -/
def deliver (conductor : Conductor) (votes : List Vote) : Bool × Conductor × List Effect :=
  conductor.perform (Gate.deliver conductor.settings votes)

/-- Stops the gate, and all work with it. -/
def stop (conductor : Conductor) : Conductor :=
  { (conductor.perform Gate.stop).2.1 with stage := .stopped }

/-- Switches the gate to the round. An outcome that is already known makes a vote needless. -/
def enter (conductor : Conductor) : Conductor × List Effect :=
  match Roster.ofPeers conductor.peers with
  | .error _ => ({ conductor with stage := .waiting }, [])
  | .ok roster =>
      let (result, switched, effects) := conductor.perform (Gate.switch conductor.round roster.peers)
      match result with
      | .error _ => ({ switched with stage := .waiting }, effects)
      | .ok none => ({ switched with stage := .voting roster }, effects)
      | .ok (some outcome) =>
          ({ switched with stage := .waiting, pending := switched.pending ++ [outcome] }, effects)

/-- Votes in the round. A vote that is refused changes nothing. -/
def castVote (conductor : Conductor) (roster : Roster) : Conductor × List Effect :=
  let (_, voted, effects) := conductor.perform
    (Gate.vote conductor.settings (conductor.propose conductor.round) ⟨roster, none⟩)
  ({ voted with stage := .waiting }, effects)

/-- The next outcome, and what is left. -/
def takeOutcome? (conductor : Conductor) : Option (Outcome × Conductor) :=
  match conductor.pending, conductor.stream with
  | outcome :: rest, _ => some (outcome, { conductor with pending := rest })
  | [], outcome :: rest => some (outcome, { conductor with stream := rest })
  | [], [] => none

/-- Moves on to the round that an outcome leads to, if it is a later one. After a decision there
is a pause.
-/
def follow (conductor : Conductor) (outcome : Outcome) : Conductor :=
  match outcome.nextRound with
  | .error overflow => { conductor with stage := .failed overflow }
  | .ok next =>
      if conductor.round < next then
        { conductor with
          round := next
          stage :=
            if outcome.Terminal ∧ 0 < conductor.delay then
              .pausing outcome (conductor.now + conductor.delay)
            else .entering }
      else conductor

/-- Does the next piece of work that is due by a moment, if there is some. -/
def step (conductor : Conductor) (limit : Nat) : Option (Conductor × List Effect) :=
  match conductor.stage with
  | .pausing _ wake =>
      if wake ≤ limit then
        some ({ conductor with now := max conductor.now wake, stage := .entering }, [])
      else none
  | .entering => some conductor.enter
  | .voting roster => some (conductor.castVote roster)
  | .waiting =>
      match conductor.takeOutcome? with
      | none => none
      | some (outcome, rest) => some (rest.follow outcome, [])
  | .failed _ | .stopped => none

/-- The work that is left: the rounds to come, then the progress within the round, then the
outcomes that wait.
-/
def work (conductor : Conductor) : Nat × Nat × Nat :=
  (UInt64.size ^ 2 - conductor.round.rank, conductor.stage.weight,
    conductor.pending.length + conductor.stream.length)

/-- One conductor has less work left than another. -/
def Less (left right : Conductor) : Prop :=
  Prod.Lex (· < ·) (Prod.Lex (· < ·) (· < ·)) left.work right.work

theorem less_of_round_lt {left right : Conductor} (h : right.round < left.round)
    : left.Less right := by
  have := Round.rank_lt_rank.mpr h
  have := left.round.rank_lt
  exact .left _ _ (by omega)

theorem less_of_weight_lt {left right : Conductor} (same : left.round = right.round)
    (h : left.stage.weight < right.stage.weight)
    : left.Less right := by
  rw [Less, work, same]
  exact .right _ (.left _ _ h)

theorem less_of_length_lt {left right : Conductor} (same : left.round = right.round)
    (weight : left.stage = right.stage)
    (h : left.pending.length + left.stream.length < right.pending.length + right.stream.length)
    : left.Less right := by
  rw [Less, work, same, weight]
  exact .right _ (.right _ h)

theorem enter_less {conductor : Conductor} (h : conductor.stage = .entering)
    : conductor.enter.1.Less conductor := by
  unfold enter
  split
  · exact less_of_weight_lt rfl (by simp [Stage.weight, h])
  · simp only [perform]
    split <;> exact less_of_weight_lt rfl (by simp [Stage.weight, h])

theorem castVote_less {conductor : Conductor} {roster : Roster}
    (h : conductor.stage = .voting roster)
    : (conductor.castVote roster).1.Less conductor :=
  less_of_weight_lt rfl (by simp [castVote, Stage.weight, h])

theorem takeOutcome?_less {conductor rest : Conductor} {outcome : Outcome}
    (taken : conductor.takeOutcome? = some (outcome, rest))
    : rest.Less conductor ∧ rest.round = conductor.round := by
  unfold takeOutcome? at taken
  split at taken
  · next pending => cases taken; exact ⟨less_of_length_lt rfl rfl (by simp [pending]), rfl⟩
  · next none stream => cases taken; exact ⟨less_of_length_lt rfl rfl (by simp [stream]), rfl⟩
  · contradiction

theorem follow_less {conductor rest : Conductor} {outcome : Outcome}
    (taken : conductor.takeOutcome? = some (outcome, rest)) (h : conductor.stage = .waiting)
    : (rest.follow outcome).Less conductor := by
  obtain ⟨less, same⟩ := takeOutcome?_less taken
  unfold follow
  split
  · exact less_of_weight_lt same (by simp [Stage.weight, h])
  · split
    · next later => exact less_of_round_lt (same ▸ later)
    · exact less

theorem step_less {conductor next : Conductor} {effects : List Effect} {limit : Nat}
    (h : conductor.step limit = some (next, effects))
    : next.Less conductor := by
  unfold step at h
  split at h
  · next stage =>
      split at h
      · cases h
        exact less_of_weight_lt rfl (by simp [Stage.weight, stage])
      · contradiction
  · next stage =>
      simpa only [Option.some.inj h] using enter_less stage
  · next stage =>
      simpa only [Option.some.inj h] using castVote_less stage
  · next stage =>
      split at h
      · contradiction
      · next taken =>
          cases h
          exact follow_less taken stage
  · contradiction
  · contradiction

end Conductor

end Quorum
