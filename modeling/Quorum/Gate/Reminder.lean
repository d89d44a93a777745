import Quorum.Agenda
import Quorum.Gate

/-! Reminders of votes that are to be sent again some times, as long as their rounds are open. -/

namespace Quorum

/-- A rebroadcast that is yet to be done so often. -/
structure Reminder where
  task : Rebroadcast
  left : Nat

namespace Reminder

/-- The work that is left, counting the removal. -/
def work (reminder : Reminder) : Nat :=
  reminder.left + 1

/-- The rebroadcasts that effects ask for, each to be done some times. -/
def ofEffects (times : Nat) (effects : List Effect) : List Reminder :=
  effects.filterMap fun
    | .schedule task => some ⟨task, times⟩
    | _ => none

/-- Does a rebroadcast once. It is to be done again unless the round is over or it was the last. -/
def ringOnce (reminder : Reminder) (gate : Gate) : Option Reminder × Gate × List Effect :=
  let (open?, gate, effects) := (Gate.rebroadcast reminder.task).run gate
  let rest := if open? ∧ 1 < reminder.left then some ⟨reminder.task, reminder.left - 1⟩ else none
  (rest, gate, effects)

/-- Does a rebroadcast so many times more than once, as long as it is to be done again. -/
def ringMore : Nat → Reminder → Gate → Option Reminder × Gate × List Effect
  | 0, reminder, gate => reminder.ringOnce gate
  | more + 1, reminder, gate =>
      match reminder.ringOnce gate with
      | (none, gate, effects) => (none, gate, effects)
      | (some rest, gate, effects) =>
          let (last, gate, later) := ringMore more rest gate
          (last, gate, effects ++ later)

/-- Does a rebroadcast when it is due. Without a delay it goes on at once, until it was done 128
times and others have their turn.
-/
def ring (delay : Nat) (reminder : Reminder) (gate : Gate)
    : Option Reminder × Gate × List Effect :=
  ringMore (if delay = 0 then 127 else 0) reminder gate

theorem work_ringOnce_lt {reminder rest : Reminder} {gate : Gate}
    (h : (reminder.ringOnce gate).1 = some rest)
    : rest.work < reminder.work := by
  simp only [ringOnce, Option.ite_none_right_eq_some] at h
  obtain ⟨⟨_, more⟩, h⟩ := h
  cases h
  simp only [work]
  omega

theorem work_ringMore_lt {more : Nat} {reminder rest : Reminder} {gate : Gate}
    (h : (ringMore more reminder gate).1 = some rest)
    : rest.work < reminder.work := by
  induction more generalizing reminder gate with
  | zero => exact work_ringOnce_lt h
  | succ more ih =>
      unfold ringMore at h
      split at h
      · contradiction
      · next once =>
          have first := work_ringOnce_lt (congrArg Prod.fst once)
          exact Nat.lt_trans (ih h) first

theorem work_ring_lt {delay : Nat} {reminder rest : Reminder} {gate : Gate}
    (h : (reminder.ring delay gate).1 = some rest)
    : rest.work < reminder.work :=
  work_ringMore_lt h

end Reminder

end Quorum
