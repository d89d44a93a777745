import Quorum.Conductor
import Quorum.Config
import Quorum.Gate.Reminder

/-! A node: its conductor, and the reminders of its votes. Whatever is due happens in the order of
the moments; time passes only in between.
-/

namespace Quorum

structure Node where
  conductor : Conductor
  agenda : Agenda Reminder
  /-- The time between two rebroadcasts. -/
  delay : Nat

namespace Node

/-- The node with a configuration, given what reading its key file gave. Without a usable key it
follows the others but never votes.
-/
def ofConfig (config : Config) (propose : Round → Candidate) (keyFile : Except FileDefect Bytes)
    : Except Fault Node := do
  let algorithm ← config.algorithm
  let peers ← config.peerList
  let settings : Gate.Settings :=
    { credentials := .ofKeypair (Keypair.ofFile algorithm keyFile).toOption
      rebroadcasts := config.consensus.rebroadcasts.toNat }
  return {
    conductor := .start settings config.consensus.window peers propose
      config.consensus.roundDelay.toNat
    agenda := .empty
    delay := config.consensus.voteDelay.toNat }

/-- Hands a bundle from the network to the node. -/
def deliver (node : Node) (votes : List Vote) : Bool × Node × List Effect :=
  let (forwarded, conductor, effects) := node.conductor.deliver votes
  (forwarded, { node with conductor }, effects)

/-- Stops the node for good. -/
def stop (node : Node) : Node :=
  { node with conductor := node.conductor.stop }

/-- Notes reminders from now on. -/
def note (node : Node) (reminders : List Reminder) : Node :=
  { node with
    agenda := reminders.foldl (fun agenda reminder => agenda.add node.delay reminder)
      (node.agenda.moveTo node.conductor.now) }

/-- The moment of the first reminder, or the limit where that comes before. -/
def horizon (node : Node) (limit : Nat) : Nat :=
  match node.agenda.entries with
  | [] => limit
  | (moment, _) :: _ => min limit moment

/-- Does what a reminder asks for, after it was taken out of the agenda. -/
def ring (node : Node) (reminder : Reminder) : Node × List Effect :=
  let (rest, gate, effects) := reminder.ring node.delay node.conductor.gate
  let conductor := { node.conductor with gate, now := max node.conductor.now node.agenda.now }
  ({ node with conductor }.note rest.toList, effects)

/-- Does the next piece of work that is due by a moment, if there is some. -/
def step (node : Node) (limit : Nat) : Option (Node × List Effect) :=
  match node.conductor.step (node.horizon limit) with
  | some (conductor, effects) =>
      let reminders := Reminder.ofEffects node.conductor.settings.rebroadcasts effects
      some ({ node with conductor }.note reminders, effects)
  | none =>
      match node.agenda.take? limit with
      | none => none
      | some (reminder, agenda) => some ({ node with agenda }.ring reminder)

/-- The work that is left: that of the conductor, then that of the reminders. -/
def work (node : Node) : (Nat × Nat × Nat) × Nat :=
  (node.conductor.work, node.agenda.total Reminder.work)

theorem total_ring_lt (node : Node) (reminder : Reminder)
    : (node.ring reminder).1.agenda.total Reminder.work
      < reminder.work + node.agenda.total Reminder.work := by
  simp only [ring, note]
  cases rest : (reminder.ring node.delay node.conductor.gate).1 with
  | none => exact Nat.lt_add_of_pos_left (Nat.succ_pos _)
  | some rest =>
      have less := Reminder.work_ring_lt rest
      simp only [Option.toList_some, List.foldl_cons, List.foldl_nil, Agenda.total_add]
      rw [Nat.add_comm]
      exact Nat.add_lt_add_right less _

theorem step_less {node next : Node} {effects : List Effect} {limit : Nat}
    (h : node.step limit = some (next, effects))
    : Prod.Lex (Prod.Lex (· < ·) (Prod.Lex (· < ·) (· < ·))) (· < ·) next.work node.work := by
  unfold step at h
  split at h
  · next stepped =>
      cases h
      exact .left _ _ (Conductor.step_less stepped)
  · split at h
    · contradiction
    · next reminder agenda taken =>
        have rung : ({ node with agenda }.ring reminder).1 = next :=
          congrArg Prod.fst (Option.some.inj h)
        rw [← rung, work, work, Agenda.total_take? Reminder.work taken]
        exact .right _ (total_ring_lt { node with agenda } reminder)

/-- Does all that is due by a moment, and lets the time pass until then. -/
def runUntil (node : Node) (limit : Nat) : Node × List Effect :=
  match _due : node.step limit with
  | none =>
      let conductor := { node.conductor with now := max node.conductor.now limit }
      ({ node with conductor }, [])
  | some (next, effects) =>
      let (last, later) := next.runUntil limit
      (last, effects ++ later)
  termination_by node.work
  decreasing_by exact step_less _due

/-- Does all that is due. -/
def settle (node : Node) : Node × List Effect :=
  node.runUntil node.conductor.now

/-- Lets some time pass. -/
def sleep (node : Node) (time : Nat) : Node × List Effect :=
  node.runUntil (node.conductor.now + time)

end Node

end Quorum
