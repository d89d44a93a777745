import Quorum.Gate.Reminder
import Quorum.Turns

/-! A cluster: gates that share a clock, and the bundles that are under way between them. A
bundle arrives, or is lost, only when it is told to.
-/

namespace Quorum

structure Member where
  settings : Gate.Settings
  /-- The key that bundles for this member are addressed to. -/
  key : Option PublicKey
  gate : Gate

/-- A bundle under way. -/
structure Parcel where
  sender : Nat
  receiver : Peer
  votes : List Vote
  deriving DecidableEq

structure Cluster where
  members : List Member
  parcels : List Parcel
  /-- The reminders of the members. -/
  agenda : Agenda (Nat × Reminder)
  /-- The time between two rebroadcasts; without one there are none. -/
  delay : Option Nat

/-- What the members of a cluster did, in order. -/
abbrev Cluster.Log := List (Nat × Effect)

namespace Cluster

def setGate (cluster : Cluster) (member : Nat) (gate : Gate) : Cluster :=
  { cluster with members := cluster.members.modify member fun entry => { entry with gate } }

/-- Puts the bundles that a member sent under way. -/
def post (cluster : Cluster) (member : Nat) (effects : List Effect) : Cluster :=
  let sent := effects.filterMap fun
    | .send peer votes => some ⟨member, peer, votes⟩
    | _ => none
  { cluster with parcels := cluster.parcels ++ sent }

/-- Notes reminders of members. -/
def remind (cluster : Cluster) (reminders : List (Nat × Reminder)) : Cluster :=
  match cluster.delay with
  | none => cluster
  | some delay => { cluster with agenda := reminders.foldl (·.add delay ·) cluster.agenda }

/-- Lets a member do some work, if there is such a member. -/
def act {α : Type} (cluster : Cluster) (member : Nat)
    (activity : Gate.Settings → Gate.Activity α)
    : Option (α × Cluster × Log) :=
  cluster.members[member]?.map fun entry =>
    let (value, gate, effects) := (activity entry.settings).run entry.gate
    let reminders := Reminder.ofEffects entry.settings.rebroadcasts effects
    let cluster := ((cluster.setGate member gate).post member effects).remind
      (reminders.map (member, ·))
    (value, cluster, effects.map (member, ·))

/-- Does what a reminder of a member asks for, and returns what is left of it. -/
def ring (cluster : Cluster) (member : Nat) (reminder : Reminder)
    : Option Reminder × Cluster × Log :=
  match cluster.members[member]? with
  | none => (none, cluster, [])
  | some entry =>
      let (rest, gate, effects) := reminder.ring (cluster.delay.getD 0) entry.gate
      (rest, (cluster.setGate member gate).post member effects, effects.map (member, ·))

/-- The work that the noted reminders leave. -/
def work (cluster : Cluster) : Nat :=
  cluster.agenda.total fun entry => entry.2.work

/-- The work that the noted reminders leave and those that wait for their turns. -/
def workWith (cluster : Cluster) (turns : Turns (Nat × Reminder)) : Nat :=
  cluster.work + turns.total fun entry => entry.2.work

/-- Gives a reminder of a member its turn. What is left of it is noted for later, but waits again
at the same moment if there is no delay.
-/
def serve (cluster : Cluster) (member : Nat) (reminder : Reminder)
    (turns : Turns (Nat × Reminder))
    : Cluster × Turns (Nat × Reminder) × Log :=
  match cluster.ring member reminder with
  | (none, cluster, log) => (cluster, turns, log)
  | (some rest, cluster, log) =>
      if cluster.delay = some 0 then (cluster, turns.breakOff (member, rest), log)
      else (cluster.remind [(member, rest)], turns, log)

theorem agenda_ring (cluster : Cluster) (member : Nat) (reminder : Reminder)
    : (cluster.ring member reminder).2.1.agenda = cluster.agenda := by
  unfold ring
  split <;> rfl

theorem work_ring_lt {cluster : Cluster} {member : Nat} {reminder rest : Reminder}
    (h : (cluster.ring member reminder).1 = some rest)
    : rest.work < reminder.work := by
  unfold ring at h
  split at h
  · contradiction
  · exact Reminder.work_ring_lt h

theorem work_remind_le (cluster : Cluster) (member : Nat) (reminder : Reminder)
    : (cluster.remind [(member, reminder)]).work ≤ cluster.work + reminder.work := by
  unfold remind
  split
  · exact Nat.le_add_right _ _
  · exact Nat.le_of_eq (Agenda.total_add _ _ _ _)

theorem workWith_serve_lt (cluster : Cluster) (member : Nat) (reminder : Reminder)
    (turns : Turns (Nat × Reminder))
    : (cluster.serve member reminder turns).1.workWith (cluster.serve member reminder turns).2.1
        < reminder.work + cluster.workWith turns := by
  have same : (cluster.ring member reminder).2.1.work = cluster.work :=
    congrArg (Agenda.total _) (agenda_ring cluster member reminder)
  have less (rest : Reminder) (h : (cluster.ring member reminder).1 = some rest) :=
    work_ring_lt h
  unfold serve workWith
  split
  · next ring =>
      simp only [ring] at same
      have some_work : 0 < reminder.work := Nat.succ_pos _
      simp only
      omega
  · next rest rung _ ring =>
      simp only [ring] at same less
      have less := less rest rfl
      split
      · simp only [Turns.total_breakOff]
        omega
      · have noted := work_remind_le rung member rest
        simp only
        omega

theorem workWith_next? (cluster : Cluster) {turns rest : Turns (Nat × Reminder)} {member : Nat}
    {reminder : Reminder} (h : turns.next? = some ((member, reminder), rest))
    : cluster.workWith turns = reminder.work + cluster.workWith rest := by
  have whole := Turns.total_next? (fun entry => entry.2.work) h
  simp only [workWith] at whole ⊢
  omega

/-- Gives reminders turns until none of them waits. -/
def pass (cluster : Cluster) (turns : Turns (Nat × Reminder)) : Cluster × Log :=
  match _next : turns.next? with
  | none => (cluster, [])
  | some ((member, reminder), turns) =>
      let served := cluster.serve member reminder turns
      let (last, later) := pass served.1 served.2.1
      (last, served.2.2 ++ later)
  termination_by cluster.workWith turns
  decreasing_by
    rw [workWith_next? cluster _next]
    exact workWith_serve_lt _ _ _ _

theorem work_pass_le (cluster : Cluster) (turns : Turns (Nat × Reminder))
    : (cluster.pass turns).1.work ≤ cluster.workWith turns := by
  fun_induction pass cluster turns with
  | case1 => exact Nat.le_add_right _ _
  | case2 cluster turns member reminder rest next served last later rest_pass ih =>
      rw [workWith_next? cluster next]
      rw [rest_pass] at ih
      exact Nat.le_trans ih (Nat.le_of_lt (workWith_serve_lt _ _ _ _))

/-- Something is done if a reminder is due. -/
theorem work_pass_lt (cluster : Cluster) {due : List (Nat × Reminder)} (h : due ≠ [])
    : (cluster.pass (.ofList due)).1.work < cluster.workWith (.ofList due) := by
  obtain ⟨⟨member, reminder⟩, rest, rfl⟩ := List.exists_cons_of_ne_nil h
  have next := Turns.next?_ofList_cons (member, reminder) rest
  rw [workWith_next? cluster next, pass]
  exact Nat.lt_of_le_of_lt (work_pass_le _ _) (workWith_serve_lt _ _ _ _)

/-- Does all that is due by a moment, in order. -/
def ringUntil (cluster : Cluster) (limit : Nat) : Cluster × Log :=
  match _due : cluster.agenda.takeDue? limit with
  | none => ({ cluster with agenda := cluster.agenda.moveTo limit }, [])
  | some (due, agenda) =>
      let passed := { cluster with agenda }.pass (.ofList due)
      let (last, later) := ringUntil passed.1 limit
      (last, passed.2 ++ later)
  termination_by cluster.work
  decreasing_by
    obtain ⟨some_due, whole⟩ := Agenda.total_takeDue? (fun entry => entry.2.work) _due
    have passed := work_pass_lt { cluster with agenda } some_due
    simp only [work, workWith, Turns.total_ofList] at passed ⊢
    omega

/-- Lets some time pass. -/
def sleep (cluster : Cluster) (time : Nat) : Cluster × Log :=
  cluster.ringUntil (cluster.agenda.now + time)

/-- Takes a bundle that is under way out of the network. -/
def take? (cluster : Cluster) (index : Nat) : Option (Parcel × Cluster) :=
  cluster.parcels[index]?.map fun parcel =>
    (parcel, { cluster with parcels := cluster.parcels.eraseIdx index })

/-- The member that bundles for a key are addressed to. -/
def addressee? (cluster : Cluster) (key : PublicKey) : Option Nat :=
  cluster.members.findIdx? fun member => member.key = some key

end Cluster

end Quorum
