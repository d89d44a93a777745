import Quorum.Proofs.Conductor.Backing

/-! Agreement on a height. The nodes of a fleet commit one block at each height, since a round is
retried only where no block can be carried any more.
-/

namespace Quorum

variable {roster : Roster} {fleet : Fleet roster} {member : roster.Member}

-----------------------------------------------------------------------------------------
-- Nodes
-----------------------------------------------------------------------------------------

namespace Fleet

/-- What the conductor of a node begins with. -/
def charter (fleet : Fleet roster) (member : roster.Member) : Conductor.Charter where
  settings := fleet.settings member
  window := fleet.window member
  peers := fleet.peers
  roster := roster
  arranged := fleet.arranged
  propose := fleet.propose member
  ofRound := fleet.ofRound member
  delay := fleet.delay member

/-- In a round that it may come to a node votes for its proposal. -/
theorem signs_of_open {round : Round} (opened : fleet.Open round)
    : (fleet.charter member).Signs fleet.Votable round := by
  intro vote signed
  obtain ⟨candidate, key⟩ := fleet.owns member _ vote signed
  rw [candidate, key]
  refine ⟨Proposals.proposed_propose member round, ?_⟩
  change fleet.Open (fleet.propose member round).round
  rw [fleet.ofRound]
  exact opened

end Fleet

/-- The round that a backed outcome leads to is one that peers may come to: a retry follows a
deadlock, and a round ahead has a vote.
-/
theorem open_of_outcome {outcome : Outcome} (backed : outcome.Backed roster fleet.Votable)
    {next : Round} (following : outcome.nextRound = .ok next)
    : fleet.Open next := by
  cases backed with
  | decided choices backed decides =>
      unfold Outcome.nextRound at following
      generalize outcome.kind = kind, outcome.winner = winner at decides following
      cases decides with
      | commit _ _ =>
          cases next
          obtain ⟨-, rfl⟩ := Round.nextHeight_eq_ok following
          exact .first _
      | nothing _ =>
          cases next
          obtain ⟨-, rfl⟩ := Round.nextHeight_eq_ok following
          exact .first _
      | reject deadlock =>
          obtain ⟨key, candidate, -, choice⟩ := deadlock.exists_participant
          exact .retry (Proposals.open_of_votable backed choice)
            (Proposals.proposed_of_votable backed) deadlock following
  | future kind key candidate voted ofRound =>
      rw [Outcome.nextRound, kind] at following
      cases following
      exact ofRound ▸ voted.2

/-- A node is in a round that it may have come to, and works with signed votes for proposals only.
-/
structure Station.Sound (fleet : Fleet roster) (member : roster.Member) (station : Station)
    : Prop where
  backed : station.Backed (fleet.charter member) fleet.Votable
  opened : fleet.Open station.conductor.round

/-- Each step of a node leaves it sound and has backed effects. -/
theorem Station.Sound.step {station next : Station} {effects : List Effect}
    (sound : station.Sound fleet member) (step : Step station next effects)
    : next.Sound fleet member
      ∧ ∀ effect ∈ effects, effect.Backed roster fleet.Votable := by
  obtain ⟨backed, effects, advances⟩ :=
    sound.backed.step (Fleet.signs_of_open sound.opened) step
  refine ⟨⟨backed, ?_⟩, effects⟩
  generalize next.conductor.round = later at advances
  cases advances with
  | stays => exact sound.opened
  | leads taken following _ =>
      exact open_of_outcome (sound.backed.conductor.takeOutcome? taken).2 following

theorem Station.Sound.assign {station : Station} (sound : station.Sound fleet member) {α : Type}
    {activity : Gate.Activity α} {post : α → Prop}
    (obeys : activity.Obeys (Gate.backing roster fleet.Votable) post)
    : (station.assign activity).Sound fleet member :=
  ⟨sound.backed.assign obeys, sound.opened⟩

-----------------------------------------------------------------------------------------
-- Networks
-----------------------------------------------------------------------------------------

namespace Network

/-- All nodes are sound, all votes cast are for proposals, and all effects are backed. -/
structure Sound (fleet : Fleet roster) (network : Network roster) : Prop where
  stations : ∀ member, (network.stations member).Sound fleet member
  cast : ∀ vote ∈ network.cast, fleet.Votable vote.key vote.candidate
  log : ∀ entry ∈ network.log, entry.2.Backed roster fleet.Votable

theorem sound_start (fleet : Fleet roster) : fleet.network.Sound fleet where
  stations member := ⟨Station.backed_start (fleet.charter member) fleet.Votable, .first 1⟩
  cast := by simp [Fleet.network]
  log := by simp [Fleet.network]

/-- A node that stays sound keeps the network sound. The votes that it cast are in its gate. -/
theorem Sound.put {network : Network roster} (sound : network.Sound fleet) {station : Station}
    (also : station.Sound fleet member) {effects : List Effect}
    (backed : ∀ effect ∈ effects, effect.Backed roster fleet.Votable)
    : (network.put member station effects).Sound fleet where
  stations other := by
    by_cases same : other = member
    · subst same
      simpa [Network.put] using also
    · simpa [Network.put, same] using sound.stations other
  cast :=
    List.forall_mem_append.mpr
      ⟨sound.cast, List.forall_mem_map.mpr also.backed.conductor.gate.ownVotes⟩
  log := List.forall_mem_append.mpr ⟨sound.log, List.forall_mem_map.mpr backed⟩

/-- Each step keeps the network sound: bundles hold votes that were cast. -/
theorem Sound.step {network later : Network roster} (sound : network.Sound fleet)
    (step : Step fleet network later)
    : later.Sound fleet := by
  cases step with
  | @work member next effects step =>
      obtain ⟨kept, backed⟩ := (sound.stations member).step step
      exact sound.put kept backed
  | deliver member votes genuine =>
      refine sound.put ((sound.stations member).assign (Gate.obeys_deliver _ ?_)) (by simp)
      intro vote inside accepted has
      obtain ⟨own, cast, key, candidate⟩ := genuine vote inside accepted has
      exact key ▸ candidate ▸ sound.cast own cast
  | remind member task scheduled =>
      exact sound.put ((sound.stations member).assign (Gate.obeys_rebroadcast task)) (by simp)

end Network

/-- Every network that comes about is sound; by induction on its steps. -/
theorem Fleet.Reachable.sound {network : Network roster} (reachable : fleet.Reachable network)
    : network.Sound fleet := by
  induction reachable with
  | start => exact Network.sound_start fleet
  | next _ step ih => exact ih.step step

/-- Whatever two nodes commit at one height is one block in one round; by the deadlocks before
each retry.
-/
theorem commits_agree_at_height {network : Network roster} (reachable : fleet.Reachable network)
    {member other : roster.Member} {candidate candidate' : Candidate} {round round' : Round}
    (commits : (member, .commit candidate round) ∈ network.log)
    (commits' : (other, .commit candidate' round') ∈ network.log)
    (height : round.height = round'.height)
    : round = round' ∧ candidate = candidate' := by
  obtain ⟨choices, backed, decides⟩ := reachable.sound.log _ commits
  obtain ⟨choices', backed', decides'⟩ := reachable.sound.log _ commits'
  cases decides with
  | commit _ carries =>
      cases decides' with
      | commit _ carries' =>
          exact Proposals.carried_eq_of_height backed backed' height carries carries'

-----------------------------------------------------------------------------------------
-- Two nodes
-----------------------------------------------------------------------------------------

namespace Fleet

def pair : Roster where
  peers := [⟨"a", .numbered 1⟩, ⟨"b", .numbered 2⟩]
  nonempty := by decide
  ascending := by decide +kernel
  distinctKeys := by decide

theorem ofPeers_pair : Roster.ofPeers pair.peers = .ok pair :=
  pair.ofPeers_peers (by decide +kernel)

/-- Two nodes that propose the same block in every round. -/
def twins : Fleet pair where
  propose _ round := ⟨round, [1], [1]⟩
  ofRound _ _ := rfl
  peers := pair.peers
  arranged := ofPeers_pair
  settings member := ⟨⟨fun candidate => .ok ⟨candidate, ⟨[]⟩, member.1⟩, fun _ => true⟩, 0⟩
  window _ := 10
  delay _ := 0
  owns := by
    rintro _ _ _ ⟨⟩
    exact ⟨rfl, rfl⟩

def first : pair.Member := ⟨.numbered 1, by decide⟩

def second : pair.Member := ⟨.numbered 2, by decide⟩

/-- A twin in its first round, before its vote. -/
def entered (member : pair.Member) : Conductor :=
  let called := (twins.network.stations member).conductor.perform (do
    let result ← Gate.switchUnder ⟨1, 0⟩ pair
    return Conductor.settle pair result)
  called.1 called.2.1

def voted (member : pair.Member) : Conductor :=
  ((entered member).castVote pair).1

def ballot (member : pair.Member) : Vote :=
  ⟨⟨⟨1, 0⟩, [1], [1]⟩, ⟨[]⟩, member.1⟩

/-- A twin enters its first round and votes. -/
theorem exists_voted (member : pair.Member) {network : Network pair}
    (reachable : twins.Reachable network)
    (fresh : network.stations member = twins.network.stations member)
    : ∃ later effects, twins.Reachable later
        ∧ network.Leads later member ⟨voted member, none, []⟩ effects := by
  have calls : (twins.network.stations member).conductor.call? = some _ :=
    Conductor.call?_of_entering rfl ofPeers_pair ofPeers_pair
  have enters := Conductor.step_of_call? calls 0
  obtain ⟨middle, reached, leads⟩ :=
    reachable.exists_of_steps (Station.steps_of_step enters []) fresh
  have idle : middle.stations member = ⟨entered member, none, []⟩ := by
    rw [leads.stations, Function.update_self]
    rfl
  have stage : (entered member).stage = .voting pair := rfl
  have votes
      : (entered member).step 0 = some (voted member, ((entered member).castVote pair).2) := by
    rw [Conductor.step, stage, voted]
  obtain ⟨later, reached', leads'⟩ :=
    reached.exists_of_steps (Station.steps_of_step votes []) idle
  exact ⟨later, _, reached', Reachable.leads_trans leads leads'⟩

/-- What is committed among effects. -/
def committed (effects : List Effect) : List (Candidate × Round) :=
  effects.filterMap fun
    | .commit candidate round => some (candidate, round)
    | _ => none

theorem commit_mem {effects : List Effect} {candidate : Candidate} {round : Round}
    (member : (candidate, round) ∈ committed effects)
    : .commit candidate round ∈ effects := by
  obtain ⟨effect, inside, commits⟩ := List.mem_filterMap.mp member
  split at commits <;> cases commits
  exact inside

/-- Each twin votes, gets the vote of the other one, and commits. -/
theorem commits_agree_among_twins
    : ∃ (network : Network pair) (candidate candidate' : Candidate) (round round' : Round),
        twins.Reachable network
        ∧ (first, .commit candidate round) ∈ network.log
        ∧ (second, .commit candidate' round') ∈ network.log
        ∧ round.height = round'.height ∧ round = round' ∧ candidate = candidate' := by
  obtain ⟨_, _, reached, leads⟩ := exists_voted first .start rfl
  obtain ⟨middle, _, reached', leads'⟩ := exists_voted second reached (by
    rw [leads.stations, Function.update_of_ne (by decide)])
  have state : middle.stations first = ⟨voted first, none, []⟩ := by
    rw [leads'.stations, Function.update_of_ne (by decide), leads.stations, Function.update_self]
  have state' : middle.stations second = ⟨voted second, none, []⟩ := by
    rw [leads'.stations, Function.update_self]
  have cast : ballot first ∈ middle.cast :=
    leads'.cast _ (leads.own (⟨1, 0⟩, ballot first) (by decide))
  have cast' : ballot second ∈ middle.cast := leads'.own (⟨1, 0⟩, ballot second) (by decide)
  obtain ⟨next, handed, delivered⟩ :=
    reached'.exists_delivered state rfl [ballot second] fun vote member _ _ =>
      ⟨ballot second, cast', List.mem_singleton.mp member ▸ ⟨rfl, rfl⟩⟩
  have waiting : next.stations second = ⟨voted second, none, []⟩ := by
    rw [delivered.stations, Function.update_of_ne (by decide), state']
  obtain ⟨last, handed', delivered'⟩ :=
    handed.exists_delivered waiting rfl [ballot first] fun vote member _ _ =>
      ⟨ballot first, delivered.cast _ cast, List.mem_singleton.mp member ▸ ⟨rfl, rfl⟩⟩
  have commits
      : (⟨⟨1, 0⟩, [1], [1]⟩, ⟨1, 0⟩) ∈ committed ((voted first).deliver [ballot second]).2.2 := by
    decide
  have commits'
      : (⟨⟨1, 0⟩, [1], [1]⟩, ⟨1, 0⟩) ∈ committed ((voted second).deliver [ballot first]).2.2 := by
    decide
  have logged : (first, .commit ⟨⟨1, 0⟩, [1], [1]⟩ ⟨1, 0⟩) ∈ last.log := by
    rw [delivered'.log, delivered.log]
    exact List.mem_append_left _
      (List.mem_append_right _ (List.mem_map_of_mem (commit_mem commits)))
  have logged' : (second, .commit ⟨⟨1, 0⟩, [1], [1]⟩ ⟨1, 0⟩) ∈ last.log := by
    rw [delivered'.log]
    exact List.mem_append_right _ (List.mem_map_of_mem (commit_mem commits'))
  obtain ⟨same, equal⟩ := commits_agree_at_height handed' logged logged' rfl
  exact ⟨last, _, _, _, _, handed', logged, logged', rfl, same, equal⟩

end Fleet

end Quorum
