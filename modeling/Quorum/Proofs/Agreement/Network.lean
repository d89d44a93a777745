import Mathlib.Logic.Function.Basic
import Quorum.Proofs.Agreement.Retries
import Quorum.Proofs.Conductor.Calls

/-! Nodes in a network. Their conductors go from round to round, each at its own pace and until it
stops, while bundles are delayed, lost, repeated and reordered.
-/

namespace Quorum

-----------------------------------------------------------------------------------------
-- Nodes and what they do
-----------------------------------------------------------------------------------------

/-- The nodes of a roster. They know one list of peers, and each signs with its own key. -/
structure Fleet (roster : Roster) extends Proposals roster where
  peers : List Peer
  arranged : Roster.ofPeers peers = .ok roster
  settings : roster.Member → Gate.Settings
  window : roster.Member → UInt64
  delay : roster.Member → Nat
  owns
    : ∀ member candidate vote, (settings member).credentials.sign candidate = .ok vote →
        vote.candidate = candidate ∧ vote.key = member.1

/-- A node at work. -/
structure Station where
  conductor : Conductor
  /-- The call of the conductor to its gate. -/
  call : Option (Gate.Activity (Conductor → Conductor))
  /-- The other activities on the gate. -/
  underWay : List (Gate.Activity Unit)

namespace Station

/-- What a node does by itself, with its effects. Its activities take turns step by step. -/
inductive Step : Station → Station → List Effect → Prop
  | follow {conductor next : Conductor} {others : List (Gate.Activity Unit)} {limit : Nat}
    {effects : List Effect} (quiet : conductor.call? = none)
    (step : conductor.step limit = some (next, effects))
    : Step ⟨conductor, none, others⟩ ⟨next, none, others⟩ effects
  | call {conductor : Conductor} {others : List (Gate.Activity Unit)}
    {activity : Gate.Activity (Conductor → Conductor)} (calls : conductor.call? = some activity)
    : Step ⟨conductor, none, others⟩ ⟨conductor, some activity, others⟩ []
  | proceed {conductor : Conductor} {others : List (Gate.Activity Unit)} {β : Type}
    (act : Gate → β × Gate × List Effect) (next : β → Gate.Activity (Conductor → Conductor))
    : Step ⟨conductor, some (.step act next), others⟩
        ⟨(conductor.perform (.perform act)).2.1,
          some (next (conductor.perform (.perform act)).1), others⟩
        (conductor.perform (.perform act)).2.2
  | conclude {conductor : Conductor} {others : List (Gate.Activity Unit)}
    (conclusion : Conductor → Conductor)
    : Step ⟨conductor, some (.done conclusion), others⟩ ⟨conclusion conductor, none, others⟩ []
  | assist {conductor : Conductor} {call : Option (Gate.Activity (Conductor → Conductor))}
    {before after : List (Gate.Activity Unit)} {β : Type}
    (act : Gate → β × Gate × List Effect) (next : β → Gate.Activity Unit)
    : Step ⟨conductor, call, before ++ .step act next :: after⟩
        ⟨(conductor.perform (.perform act)).2.1, call,
          before ++ next (conductor.perform (.perform act)).1 :: after⟩
        (conductor.perform (.perform act)).2.2
  | stop {conductor : Conductor} {others : List (Gate.Activity Unit)}
    : Step ⟨conductor, none, others⟩ ⟨conductor.stop, none, others⟩ []

def assign {α : Type} (station : Station) (activity : Gate.Activity α) : Station :=
  { station with underWay := discard activity :: station.underWay }

/-- What a node does by itself in a row. -/
inductive Steps : Station → Station → List Effect → Prop
  | none (station : Station) : Steps station station []
  | next {station middle last : Station} {effects later : List Effect}
    (first : Step station middle effects) (rest : Steps middle last later)
    : Steps station last (effects ++ later)

/-- By induction on the steps of the first row. -/
theorem Steps.append {station middle last : Station} {effects later : List Effect}
    (steps : Steps station middle effects) (more : Steps middle last later)
    : Steps station last (effects ++ later) := by
  induction steps with
  | none _ => exact more
  | next first _ ih =>
      rw [List.append_assoc]
      exact .next first (ih more)

/-- A call may be done in a row; by induction on its steps. -/
theorem steps_of_busy (conductor : Conductor) (activity : Gate.Activity (Conductor → Conductor))
    (others : List (Gate.Activity Unit))
    : Steps ⟨conductor, some activity, others⟩
        ⟨(conductor.perform activity).1 (conductor.perform activity).2.1, none, others⟩
        (conductor.perform activity).2.2 := by
  induction activity generalizing conductor with
  | done conclusion =>
      rw [Conductor.perform_done]
      exact .next (.conclude conclusion) (.none _)
  | step act next ih =>
      rw [Conductor.perform_step]
      exact .next (.proceed act next) (ih _ _)

/-- A node may do a step of its conductor in a row. -/
theorem steps_of_step {conductor next : Conductor} {limit : Nat} {effects : List Effect}
    (step : conductor.step limit = some (next, effects)) (others : List (Gate.Activity Unit))
    : Steps ⟨conductor, none, others⟩ ⟨next, none, others⟩ effects := by
  cases calls : conductor.call? with
  | none =>
      have steps : Steps ⟨conductor, none, others⟩ _ _ := .next (.follow calls step) (.none _)
      rwa [List.append_nil] at steps
  | some activity =>
      rw [Conductor.step_of_call? calls] at step
      cases step
      exact .next (.call calls) (steps_of_busy conductor activity others)

/-- What else works on a gate may be done in a row; by induction on its steps. -/
theorem steps_of_assigned (conductor : Conductor)
    (call : Option (Gate.Activity (Conductor → Conductor))) (activity : Gate.Activity Unit)
    (others : List (Gate.Activity Unit))
    : Steps ⟨conductor, call, activity :: others⟩
        ⟨(conductor.perform activity).2.1, call, .done () :: others⟩
        (conductor.perform activity).2.2 := by
  induction activity generalizing conductor with
  | done value =>
      rw [Conductor.perform_done]
      exact .none _
  | step act next ih =>
      rw [Conductor.perform_step]
      have assisted : Step ⟨conductor, call, [] ++ .step act next :: others⟩ _ _ :=
        .assist act next
      exact .next assisted (ih _ _)

/-- A bundle may be handed to a conductor in a row. -/
theorem steps_of_delivered (conductor : Conductor)
    (call : Option (Gate.Activity (Conductor → Conductor))) (others : List (Gate.Activity Unit))
    (votes : List Vote)
    : Steps (assign ⟨conductor, call, others⟩ (Gate.deliver conductor.settings votes))
        ⟨(conductor.deliver votes).2.1, call, .done () :: others⟩
        (conductor.deliver votes).2.2 := by
  have steps := steps_of_assigned conductor call
    (discard (Gate.deliver conductor.settings votes)) others
  rw [Conductor.perform_discard] at steps
  exact steps

end Station

/-- All nodes, the votes that they cast so far, and all their effects. -/
structure Network (roster : Roster) where
  stations : roster.Member → Station
  cast : List Vote
  log : List (roster.Member × Effect)

namespace Network

variable {roster : Roster}

/-- The network after a node did something, or was given something to do. -/
def put (network : Network roster) (member : roster.Member) (station : Station)
    (effects : List Effect)
    : Network roster where
  stations := Function.update network.stations member station
  cast := network.cast ++ station.conductor.gate.ownVotes.map Prod.snd
  log := network.log ++ effects.map (member, ·)

/-- What happens in a network: a node works, gets a bundle, or is reminded of its vote. All votes of
peers in a bundle that pass for genuine were cast by the owner of their key; any such bundle may
come at any time, often or never. A node that does nothing any more has crashed.
-/
inductive Step (fleet : Fleet roster) (network : Network roster) : Network roster → Prop
  | work {member : roster.Member} {next : Station} {effects : List Effect}
    (step : Station.Step (network.stations member) next effects)
    : Step fleet network (network.put member next effects)
  | deliver (member : roster.Member) (votes : List Vote)
    (genuine
      : ∀ vote ∈ votes, (fleet.settings member).credentials.accepts vote = true →
          roster.Has vote.key →
            ∃ own ∈ network.cast, own.key = vote.key ∧ own.candidate = vote.candidate)
    : Step fleet network
        (network.put member
          ((network.stations member).assign (Gate.deliver (fleet.settings member) votes)) [])
  | remind (member : roster.Member) (task : Rebroadcast)
    (scheduled : (member, .schedule task) ∈ network.log)
    : Step fleet network
        (network.put member ((network.stations member).assign (Gate.rebroadcast task)) [])

end Network

namespace Fleet

variable {roster : Roster}

/-- The nodes before their first step. -/
def network (fleet : Fleet roster) : Network roster where
  stations member :=
    { conductor :=
        .start (fleet.settings member) (fleet.window member) fleet.peers (fleet.propose member)
          (fleet.delay member)
      call := none
      underWay := [] }
  cast := []
  log := []

/-- The networks that come about from the nodes of the fleet. -/
inductive Reachable (fleet : Fleet roster) : Network roster → Prop
  | start : Reachable fleet fleet.network
  | next {network later : Network roster} (reachable : Reachable fleet network)
    (step : Network.Step fleet network later) : Reachable fleet later

end Fleet

-----------------------------------------------------------------------------------------
-- Work without a break
-----------------------------------------------------------------------------------------

/-- One node came to a state, and nothing else happened. -/
structure Network.Leads {roster : Roster} (network later : Network roster)
    (member : roster.Member) (station : Station) (effects : List Effect)
    : Prop where
  stations : later.stations = Function.update network.stations member station
  cast : ∀ vote ∈ network.cast, vote ∈ later.cast
  own : ∀ entry ∈ station.conductor.gate.ownVotes, entry.2 ∈ later.cast
  log : later.log = network.log ++ effects.map (member, ·)

namespace Fleet.Reachable

variable {roster : Roster} {fleet : Fleet roster} {network : Network roster}
  {member : roster.Member}

theorem leads_put (network : Network roster) (member : roster.Member) (station : Station)
    (effects : List Effect)
    : network.Leads (network.put member station effects) member station effects where
  stations := rfl
  cast _ earlier := List.mem_append_left _ earlier
  own _ kept := List.mem_append_right _ (List.mem_map_of_mem kept)
  log := rfl

theorem leads_trans {middle later : Network roster} {station last : Station}
    {effects more : List Effect} (first : network.Leads middle member station effects)
    (second : middle.Leads later member last more)
    : network.Leads later member last (effects ++ more) where
  stations := by rw [second.stations, first.stations, Function.update_idem]
  cast vote earlier := second.cast vote (first.cast vote earlier)
  own := second.own
  log := by rw [second.log, first.log, List.map_append, List.append_assoc]

/-- The votes that a node keeps as its own were cast. -/
theorem own_cast (reachable : fleet.Reachable network) (member : roster.Member)
    : ∀ entry ∈ (network.stations member).conductor.gate.ownVotes, entry.2 ∈ network.cast := by
  have put {network : Network roster}
      (ih : ∀ member, ∀ entry ∈ (network.stations member).conductor.gate.ownVotes,
        entry.2 ∈ network.cast)
      (active : roster.Member) (station : Station) (effects : List Effect)
      : ∀ member, ∀ entry ∈ ((network.put active station effects).stations
          member).conductor.gate.ownVotes, entry.2 ∈ (network.put active station effects).cast := by
    intro member entry kept
    by_cases same : member = active
    · subst same
      simp only [Network.put, Function.update_self] at kept
      exact List.mem_append_right _ (List.mem_map_of_mem kept)
    · simp only [Network.put, Function.update_of_ne same] at kept
      exact List.mem_append_left _ (ih member entry kept)
  induction reachable generalizing member with
  | start => simp [Fleet.network, Conductor.start, Gate.initial]
  | next _ step ih =>
      cases step with
      | work _ => exact put ih _ _ _ member
      | deliver _ _ _ => exact put ih _ _ _ member
      | remind _ _ _ => exact put ih _ _ _ member

/-- What a node may do in a row may happen in a network; by induction on its steps. -/
theorem exists_of_steps (reachable : fleet.Reachable network) {station last : Station}
    {effects : List Effect} (steps : Station.Steps station last effects)
    (state : network.stations member = station)
    : ∃ later, fleet.Reachable later ∧ network.Leads later member last effects := by
  induction steps generalizing network with
  | none station =>
      have same : Function.update network.stations member station = network.stations := by
        rw [← state, Function.update_eq_self]
      have own := reachable.own_cast member
      rw [state] at own
      exact ⟨network, reachable, same.symm, fun _ cast => cast, own, by simp⟩
  | next first _ ih =>
      rw [← state] at first
      obtain ⟨later, reached, leads⟩ := ih (reachable.next (.work first)) (Function.update_self ..)
      exact ⟨later, reached, leads_trans (leads_put _ _ _ _) leads⟩

/-- A bundle may be handed to a conductor without a break. -/
theorem exists_delivered (reachable : fleet.Reachable network) {conductor : Conductor}
    {call : Option (Gate.Activity (Conductor → Conductor))} {others : List (Gate.Activity Unit)}
    (state : network.stations member = ⟨conductor, call, others⟩)
    (settings : conductor.settings = fleet.settings member) (votes : List Vote)
    (genuine
      : ∀ vote ∈ votes, (fleet.settings member).credentials.accepts vote = true →
          roster.Has vote.key →
            ∃ own ∈ network.cast, own.key = vote.key ∧ own.candidate = vote.candidate)
    : ∃ later, fleet.Reachable later
        ∧ network.Leads later member ⟨(conductor.deliver votes).2.1, call, .done () :: others⟩
            (conductor.deliver votes).2.2 := by
  have assigned := reachable.next (.deliver member votes genuine)
  rw [state, ← settings] at assigned
  obtain ⟨later, reached, leads⟩ :=
    assigned.exists_of_steps (Station.steps_of_delivered conductor call others votes)
      (Function.update_self ..)
  have whole := leads_trans (leads_put _ _ _ _) leads
  rw [List.nil_append] at whole
  exact ⟨later, reached, whole⟩

end Fleet.Reachable

end Quorum
