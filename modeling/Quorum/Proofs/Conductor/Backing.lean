import Quorum.Proofs.Agreement.Network

/-! Backed conductors. A node that is given signed votes only, and has signed its own, holds and
does nothing that signed votes do not back. Each step leaves it in its round, or takes it to a later
one that a backed outcome leads to.
-/

namespace Quorum

namespace Conductor

variable {charter : Charter} {signed : PublicKey → Candidate → Prop} {conductor : Conductor}

/-- What is voted for in the round is signed. -/
def Charter.Signs (charter : Charter) (signed : PublicKey → Candidate → Prop) (round : Round)
    : Prop :=
  ∀ vote, charter.settings.credentials.sign (charter.propose round) = .ok vote →
    signed vote.key vote.candidate

-----------------------------------------------------------------------------------------
-- Rounds
-----------------------------------------------------------------------------------------

/-- The rounds that a conductor may be in after a step: its own, or a later one that the next
outcome leads to.
-/
inductive Advances (conductor : Conductor) : Round → Prop
  | stays : Advances conductor conductor.round
  | leads {outcome : Outcome} {rest : Conductor} {next : Round}
    (taken : conductor.takeOutcome? = some (outcome, rest))
    (following : outcome.nextRound = .ok next) (later : conductor.round < next)
    : Advances conductor next

theorem Advances.le {next : Round} (advances : conductor.Advances next)
    : conductor.round ≤ next := by
  cases advances with
  | stays => exact .inr rfl
  | leads _ _ later => exact .inl later

theorem advances_of_taken {outcome : Outcome} {rest : Conductor}
    (taken : conductor.takeOutcome? = some (outcome, rest))
    : conductor.Advances (rest.follow outcome).round := by
  obtain ⟨_, _, rfl, -⟩ := takeOutcome?_eq_some taken
  unfold follow
  split
  · exact .stays
  · next following =>
      split
      · next later => exact .leads taken following later
      · exact .stays

theorem advances_of_step {next : Conductor} {limit : Nat} {effects : List Effect}
    (step : conductor.step limit = some (next, effects))
    : conductor.Advances next.round := by
  unfold Conductor.step at step
  split at step
  · split at step
    · cases step
      exact .stays
    · cases step
  · obtain rfl := congrArg Prod.fst (Option.some.inj step)
    simp only [enter, perform]
    split
    · exact .stays
    · split <;> exact .stays
  · obtain rfl := congrArg Prod.fst (Option.some.inj step)
    exact .stays
  · split at step
    · cases step
    · next taken =>
        cases step
        exact advances_of_taken taken
  · cases step
  · cases step

-----------------------------------------------------------------------------------------
-- Conductors
-----------------------------------------------------------------------------------------

/-- The conductor works as it began, and signed votes back its gate and its outcomes. -/
structure Backed (charter : Charter) (signed : PublicKey → Candidate → Prop)
    (conductor : Conductor)
    : Prop where
  settings : conductor.settings = charter.settings
  peers : conductor.peers = charter.peers
  propose : conductor.propose = charter.propose
  single : ∀ other, conductor.stage = .voting other → other = charter.roster
  gate : conductor.gate.Backed charter.roster signed
  outcomes
    : ∀ outcome ∈ conductor.pending ++ conductor.stream, outcome.Backed charter.roster signed

theorem backed_start (charter : Charter) (signed : PublicKey → Candidate → Prop)
    : charter.start.Backed charter signed where
  settings := rfl
  peers := rfl
  propose := rfl
  single other stage := by cases stage
  gate := Gate.backed_initial _
  outcomes := by simp [Charter.start, start]

namespace Backed

/-- What the gate does without a break leaves the conductor backed. -/
theorem perform {α : Type} (backed : conductor.Backed charter signed)
    {activity : Gate.Activity α} {post : α → Prop}
    (obeys : activity.Obeys (Gate.backing charter.roster signed) post)
    : (conductor.perform activity).2.1.Backed charter signed
      ∧ (∀ effect ∈ (conductor.perform activity).2.2, effect.Backed charter.roster signed)
      ∧ post (conductor.perform activity).1 := by
  obtain ⟨gate, effects, value⟩ := obeys.run backed.gate
  refine ⟨{ backed with gate, outcomes := ?_ }, effects, value⟩
  obtain ⟨pending, stream⟩ := List.forall_mem_append.mp backed.outcomes
  refine List.forall_mem_append.mpr ⟨pending, List.forall_mem_append.mpr ⟨stream, ?_⟩⟩
  intro outcome new
  obtain ⟨effect, inside, surfaced⟩ := List.mem_filterMap.mp new
  have allowed := effects effect inside
  split at surfaced
  · cases surfaced
    exact allowed
  · cases surfaced

/-- Another stage needs a known roster at most. -/
theorem turn (backed : conductor.Backed charter signed) {stage : Stage}
    (single : ∀ other, stage = .voting other → other = charter.roster)
    : { conductor with stage }.Backed charter signed :=
  { backed with single }

theorem follow (backed : conductor.Backed charter signed) (outcome : Outcome)
    : (conductor.follow outcome).Backed charter signed := by
  unfold Conductor.follow
  split
  · exact backed.turn nofun
  · split
    · refine { backed with single := ?_ }
      intro other stage
      simp only at stage
      split at stage <;> cases stage
    · exact backed

theorem takeOutcome? {rest : Conductor} (backed : conductor.Backed charter signed)
    {outcome : Outcome} (taken : conductor.takeOutcome? = some (outcome, rest))
    : rest.Backed charter signed ∧ outcome.Backed charter.roster signed := by
  obtain ⟨pending, stream, rfl, queued⟩ := takeOutcome?_eq_some taken
  have outcomes := backed.outcomes
  rw [queued, List.forall_mem_cons] at outcomes
  exact ⟨{ backed with outcomes := outcomes.2 }, outcomes.1⟩

/-- A step without a call to the gate leaves the conductor backed, and has no effects. -/
theorem step {next : Conductor} (backed : conductor.Backed charter signed)
    (quiet : conductor.call? = none) {limit : Nat} {effects : List Effect}
    (step : conductor.step limit = some (next, effects))
    : next.Backed charter signed ∧ effects = [] := by
  unfold call? at quiet
  unfold Conductor.step at step
  split at step
  · split at step
    · cases step
      exact ⟨{ backed with single := nofun }, rfl⟩
    · cases step
  · next stage => simp [stage, backed.peers, charter.arranged] at quiet
  · next stage => simp [stage] at quiet
  · split at step
    · cases step
    · next outcome _ taken =>
        cases step
        exact ⟨(backed.takeOutcome? taken).1.follow outcome, rfl⟩
  · cases step
  · cases step

/-- The calls of a backed conductor obey, and lead to backed conclusions in the same round. -/
theorem obeys_call (backed : conductor.Backed charter signed)
    (signs : charter.Signs signed conductor.round)
    {activity : Gate.Activity (Conductor → Conductor)} (calls : conductor.call? = some activity)
    : activity.Obeys (Gate.backing charter.roster signed) fun conclusion =>
        ∀ other : Conductor, other.Backed charter signed →
          (conclusion other).Backed charter signed ∧ (conclusion other).round = other.round := by
  unfold call? at calls
  split at calls
  · split at calls
    · cases calls
    · next arranged =>
        rw [backed.peers, charter.arranged] at arranged
        cases arranged
        cases calls
        refine (Gate.obeys_switch _ fun _ => Roster.eq_of_ofPeers_peers).bind fun result known => ?_
        refine Gate.Activity.obeys_pure fun other backed_other => ?_
        unfold settle
        split
        · exact ⟨backed_other.turn nofun, rfl⟩
        · exact ⟨backed_other.turn fun _ stage => (Stage.voting.inj stage).symm, rfl⟩
        · next outcome =>
            refine ⟨{ backed_other with single := nofun, outcomes := ?_ }, rfl⟩
            obtain ⟨pending, stream⟩ := List.forall_mem_append.mp backed_other.outcomes
            have last : outcome.Backed charter.roster signed := known outcome rfl
            exact List.forall_mem_append.mpr
              ⟨List.forall_mem_append.mpr ⟨pending, List.forall_mem_singleton.mpr last⟩, stream⟩
  · next stage =>
      cases calls
      obtain rfl := backed.single _ stage
      rw [backed.settings, backed.propose]
      refine (Gate.obeys_vote _ signs).bind fun _ _ => ?_
      exact Gate.Activity.obeys_pure fun other backed_other => ⟨backed_other.turn nofun, rfl⟩
  all_goals cases calls

end Backed

end Conductor

-----------------------------------------------------------------------------------------
-- Nodes
-----------------------------------------------------------------------------------------

namespace Station

open Conductor (Charter)

variable {charter : Charter} {signed : PublicKey → Candidate → Prop}

/-- The conductor is backed, and all that works on the gate obeys. -/
structure Backed (charter : Charter) (signed : PublicKey → Candidate → Prop) (station : Station)
    : Prop where
  conductor : station.conductor.Backed charter signed
  call
    : ∀ activity ∈ station.call,
        activity.Obeys (Gate.backing charter.roster signed) fun conclusion =>
          ∀ other : Conductor, other.Backed charter signed →
            (conclusion other).Backed charter signed ∧ (conclusion other).round = other.round
  underWay
    : ∀ activity ∈ station.underWay,
        activity.Obeys (Gate.backing charter.roster signed) fun _ => True

theorem backed_start (charter : Charter) (signed : PublicKey → Candidate → Prop)
    : (Station.mk charter.start none []).Backed charter signed :=
  ⟨Conductor.backed_start charter signed, by simp, by simp⟩

/-- Each step of a node leaves it backed and has backed effects. -/
theorem Backed.step {station next : Station} (backed : station.Backed charter signed)
    (signs : charter.Signs signed station.conductor.round) {effects : List Effect}
    (step : Step station next effects)
    : next.Backed charter signed
      ∧ (∀ effect ∈ effects, effect.Backed charter.roster signed)
      ∧ station.conductor.Advances next.conductor.round := by
  obtain ⟨backed, call, underWay⟩ := backed
  cases step with
  | follow quiet step =>
      obtain ⟨kept, rfl⟩ := backed.step quiet step
      exact ⟨⟨kept, call, underWay⟩, by simp, Conductor.advances_of_step step⟩
  | call calls =>
      refine ⟨⟨backed, ?_, underWay⟩, by simp, .stays⟩
      rintro _ ⟨⟩
      exact backed.obeys_call signs calls
  | proceed act next =>
      obtain ⟨kept, effects, rest⟩ := backed.perform (call _ rfl).first
      refine ⟨⟨kept, ?_, underWay⟩, effects, .stays⟩
      rintro _ ⟨⟩
      exact rest
  | @conclude conductor _ conclusion =>
      obtain ⟨kept, same⟩ := call _ rfl conductor backed
      exact ⟨⟨kept, by simp, underWay⟩, by simp, same ▸ .stays⟩
  | assist act next =>
      have current := underWay (.step act next) (by simp)
      obtain ⟨kept, effects, rest⟩ := backed.perform current.first
      exact ⟨⟨kept, call, Gate.Activity.forall_mem_replace underWay rest⟩, effects, .stays⟩
  | stop =>
      obtain ⟨kept, -, -⟩ := backed.perform Gate.obeys_stop
      exact ⟨⟨kept.turn nofun, call, underWay⟩, by simp, .stays⟩

theorem Backed.assign {station : Station} (backed : station.Backed charter signed) {α : Type}
    {activity : Gate.Activity α} {post : α → Prop}
    (obeys : activity.Obeys (Gate.backing charter.roster signed) post)
    : (station.assign activity).Backed charter signed :=
  ⟨backed.conductor, backed.call, List.forall_mem_cons.mpr ⟨obeys.discard, backed.underWay⟩⟩

end Station

end Quorum
