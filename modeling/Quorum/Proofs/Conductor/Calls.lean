import Quorum.Conductor

/-! The calls of a conductor to its gate. A step of the conductor does its call without a break, and
then draws the conclusion from the result. Apart from that it only follows outcomes.
-/

namespace Quorum

/-- Enters a round under a roster, unless the gate is stopped. -/
def Gate.switchUnder (round : Round) (roster : Roster)
    : Gate.Activity (Except Fault (Option Outcome)) := do
  if ← Activity.observe (·.stopped) then
    return .error .stopped
  enterRound round ⟨roster, none⟩

theorem Gate.switch_of_arranged {round : Round} {peers : List Peer} {roster : Roster}
    (arranged : Roster.ofPeers peers = .ok roster)
    : Gate.switch round peers = Gate.switchUnder round roster := by
  rw [Gate.switch, arranged, Gate.switchUnder]

namespace Conductor

/-- What a conductor begins with. The peers make up a roster, and what it votes for in a round is of
that round.
-/
structure Charter where
  settings : Gate.Settings
  window : UInt64
  peers : List Peer
  roster : Roster
  arranged : Roster.ofPeers peers = .ok roster
  propose : Round → Candidate
  ofRound : ∀ round, (propose round).round = round
  delay : Nat

def Charter.start (charter : Charter) : Conductor :=
  .start charter.settings charter.window charter.peers charter.propose charter.delay

/-- The conclusion from a switch to the round under a roster. -/
def settle (roster : Roster) (result : Except Fault (Option Outcome)) (conductor : Conductor)
    : Conductor :=
  match result with
  | .error _ => { conductor with stage := .waiting }
  | .ok none => { conductor with stage := .voting roster }
  | .ok (some outcome) =>
      { conductor with stage := .waiting, pending := conductor.pending ++ [outcome] }

/-- The call that is next, with the conclusion from its result. -/
def call? (conductor : Conductor) : Option (Gate.Activity (Conductor → Conductor)) :=
  match conductor.stage with
  | .entering =>
      match Roster.ofPeers conductor.peers with
      | .error _ => none
      | .ok roster => some (do
          let result ← Gate.switch conductor.round roster.peers
          return settle roster result)
  | .voting roster => some (do
      let _ ← Gate.vote conductor.settings (conductor.propose conductor.round) ⟨roster, none⟩
      return fun conductor => { conductor with stage := .waiting })
  | .pausing _ _ | .waiting | .failed _ | .stopped => none

/-- On entering a round the conductor calls for a switch under the roster of its peers. -/
theorem call?_of_entering {conductor : Conductor} {roster : Roster}
    (stage : conductor.stage = .entering) (arranged : Roster.ofPeers conductor.peers = .ok roster)
    (again : Roster.ofPeers roster.peers = .ok roster)
    : conductor.call? = some (do
        let result ← Gate.switchUnder conductor.round roster
        return settle roster result) := by
  simp only [call?, stage, arranged, Gate.switch_of_arranged again]

/-- A step with a call does the call without a break, and then concludes. -/
theorem step_of_call? {conductor : Conductor}
    {activity : Gate.Activity (Conductor → Conductor)}
    (calls : conductor.call? = some activity) (limit : Nat)
    : conductor.step limit
      = some ((conductor.perform activity).1 (conductor.perform activity).2.1,
          (conductor.perform activity).2.2) := by
  unfold call? at calls
  split at calls
  · next stage =>
      split at calls
      · cases calls
      · next roster arranged =>
          cases calls
          simp only [step, stage, enter, arranged, perform, Gate.Activity.run_bind,
            Gate.Activity.run_pure, List.append_nil]
          unfold settle
          split <;> simp [*]
  · next roster stage =>
      cases calls
      simp only [step, stage, castVote, perform, Gate.Activity.run_bind, Gate.Activity.run_pure,
        List.append_nil]
  all_goals cases calls

/-- The outcome that is taken is the first of those that are queued. -/
theorem takeOutcome?_eq_some {conductor rest : Conductor} {outcome : Outcome}
    (taken : conductor.takeOutcome? = some (outcome, rest))
    : ∃ pending stream, rest = { conductor with pending, stream }
        ∧ conductor.pending ++ conductor.stream = outcome :: (pending ++ stream) := by
  unfold takeOutcome? at taken
  split at taken
  · next queued =>
      cases taken
      exact ⟨_, _, rfl, by rw [queued]; rfl⟩
  · next empty queued =>
      cases taken
      exact ⟨_, _, rfl, by rw [empty, queued]; rfl⟩
  · cases taken

/-- A step of a conductor that waits takes the first outcome that is queued, and follows it. -/
theorem step_of_waiting {conductor next : Conductor} {effects : List Effect} {limit : Nat}
    (stage : conductor.stage = .waiting) (step : conductor.step limit = some (next, effects))
    : ∃ outcome pending stream,
        next = follow { conductor with pending, stream } outcome
        ∧ conductor.pending ++ conductor.stream = outcome :: (pending ++ stream) := by
  rw [Conductor.step, stage] at step
  cases taken : conductor.takeOutcome? with
  | none => simp [taken] at step
  | some entry =>
      obtain ⟨outcome, rest⟩ := entry
      obtain ⟨pending, stream, rfl, queued⟩ := takeOutcome?_eq_some taken
      simp only [taken, Option.some.injEq, Prod.mk.injEq] at step
      exact ⟨outcome, pending, stream, step.1.symm, queued⟩

/-- A step during a pause ends it. -/
theorem step_of_pausing {conductor next : Conductor} {effects : List Effect} {limit : Nat}
    {decision : Outcome} {wake : Nat} (stage : conductor.stage = .pausing decision wake)
    (step : conductor.step limit = some (next, effects))
    : next = { conductor with now := max conductor.now wake, stage := .entering } := by
  rw [Conductor.step, stage] at step
  simp only at step
  split at step
  · cases step
    rfl
  · cases step

theorem perform_done {α : Type} (conductor : Conductor) (value : α)
    : conductor.perform (.done value) = (value, conductor, []) := by
  simp [perform, Gate.Activity.run, surfaced]

theorem perform_step {α β : Type} (conductor : Conductor) (act : Gate → β × Gate × List Effect)
    (next : β → Gate.Activity α)
    : conductor.perform (.step act next)
      = let (value, stepped, effects) := conductor.perform (.perform act)
        let (result, last, later) := stepped.perform (next value)
        (result, last, effects ++ later) := by
  simp [perform, Gate.Activity.run, Gate.Activity.perform, surfaced, List.filterMap_append]

/-- It makes no difference for the conductor whether a value is dropped. -/
theorem perform_discard {α : Type} (conductor : Conductor) (activity : Gate.Activity α)
    : (conductor.perform (discard activity)).2 = (conductor.perform activity).2 := by
  have same : discard activity = activity >>= fun _ => pure () := rfl
  simp [perform, same]

end Conductor

end Quorum
