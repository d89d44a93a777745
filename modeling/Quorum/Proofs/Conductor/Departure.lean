import Quorum.Proofs.Conductor.Backing
import Quorum.Proofs.Conductor.Journey

/-! Departures to rounds ahead. A node leaves its round by an outcome that tells of votes ahead only
for a round of which a peer of the roster has signed a vote. One peer is enough for that, whether it
is faulty or not.
-/

namespace Quorum.Station

open Conductor (Charter)

variable {charter : Charter} {signed : PublicKey → Candidate → Prop} {station next : Station}
  {effects : List Effect}

-----------------------------------------------------------------------------------------
-- Nodes that are given signed votes
-----------------------------------------------------------------------------------------

/-- The nodes that come about from a fresh one. Any bundle may come at any time; the votes of peers
in it that pass for genuine are signed by these.
-/
inductive Reachable (charter : Charter) (signed : PublicKey → Candidate → Prop) : Station → Prop
  | start : Reachable charter signed ⟨charter.start, none, []⟩
  | work {station next : Station} {effects : List Effect}
    (reachable : Reachable charter signed station) (step : Step station next effects)
    : Reachable charter signed next
  | deliver {station : Station} (reachable : Reachable charter signed station) (votes : List Vote)
    (genuine
      : ∀ vote ∈ votes, charter.settings.credentials.accepts vote = true →
          charter.roster.Has vote.key → signed vote.key vote.candidate)
    : Reachable charter signed (station.assign (Gate.deliver charter.settings votes))
  | remind {station : Station} (reachable : Reachable charter signed station) (task : Rebroadcast)
    : Reachable charter signed (station.assign (Gate.rebroadcast task))

namespace Reachable

/-- What a node may do in a row leads to another one; by induction on its steps. -/
theorem steps (reachable : Reachable charter signed station)
    (steps : Steps station next effects)
    : Reachable charter signed next := by
  induction steps with
  | none _ => exact reachable
  | next first _ ih => exact ih (reachable.work first)

/-- Without regard to what is signed, a node works as it began. -/
theorem works (reachable : Reachable charter signed station)
    : station.Backed charter fun _ _ => True := by
  induction reachable with
  | start => exact backed_start charter _
  | work _ step ih => exact (ih.step (fun _ _ => trivial) step).1
  | deliver _ votes _ ih => exact ih.assign (Gate.obeys_deliver _ fun _ _ _ _ => trivial)
  | remind _ task ih => exact ih.assign (Gate.obeys_rebroadcast task)

theorem advances (reachable : Reachable charter signed station)
    (step : Step station next effects)
    : station.conductor.Advances next.conductor.round :=
  (reachable.works.step (fun _ _ => trivial) step).2.2

/-- As long as a node is in earlier rounds, no vote backs it that is of a round ahead which no peer
has voted in; by induction on what happens to it, as rounds never go back.
-/
theorem backed_before (reachable : Reachable charter signed station)
    (signs
      : ∀ candidate vote, charter.settings.credentials.sign candidate = .ok vote →
          vote.candidate = candidate)
    {ahead : Round}
    (unvoted
      : ∀ key candidate, charter.roster.Has key → signed key candidate → candidate.round ≠ ahead)
    (before : station.conductor.round < ahead)
    : station.Backed charter fun _ candidate => candidate.round ≠ ahead := by
  induction reachable with
  | start => exact backed_start charter _
  | @work station next _ reachable step ih =>
      have earlier := Round.lt_of_le_of_lt (reachable.advances step).le before
      refine ((ih earlier).step (fun vote signed => ?_) step).1
      rw [signs _ _ signed, charter.ofRound]
      rintro rfl
      exact Round.lt_irrefl _ earlier
  | deliver _ votes genuine ih =>
      refine (ih before).assign (Gate.obeys_deliver _ fun vote inside accepted has => ?_)
      exact unvoted vote.key vote.candidate has (genuine vote inside accepted has)
  | remind _ task ih => exact (ih before).assign (Gate.obeys_rebroadcast task)

end Reachable

/-- A node that leaves its round takes an outcome that leads to the next one. If that tells of votes
ahead, a peer of the roster has signed a vote of the next round.
-/
theorem leaves_by_signed_vote (reachable : Reachable charter signed station)
    (signs
      : ∀ candidate vote, charter.settings.credentials.sign candidate = .ok vote →
          vote.candidate = candidate)
    (step : Step station next effects)
    (leaves : station.conductor.round < next.conductor.round)
    : ∃ outcome rest,
        station.conductor.takeOutcome? = some (outcome, rest)
        ∧ outcome.nextRound = .ok next.conductor.round
        ∧ (outcome.kind = .future →
            ∃ key candidate,
              charter.roster.Has key ∧ signed key candidate
              ∧ candidate.round = next.conductor.round) := by
  have advances := reachable.advances step
  generalize next.conductor.round = ahead at advances leaves
  cases advances with
  | stays => exact absurd leaves (Round.lt_irrefl _)
  | @leads outcome rest _ taken following _ =>
      refine ⟨outcome, rest, taken, following, fun future => ?_⟩
      by_contra unvoted
      have unvoted (key : PublicKey) (candidate : Candidate) (has : charter.roster.Has key)
          (voted : signed key candidate)
          : candidate.round ≠ ahead :=
        fun same => unvoted ⟨key, candidate, has, voted, same⟩
      have backed := (reachable.backed_before signs unvoted leaves).conductor
      cases (backed.takeOutcome? taken).2 with
      | decided _ _ decides =>
          generalize outcome.winner = winner at decides
          rw [future] at decides
          cases decides
      | future _ _ _ elsewhere ofRound =>
          rw [Outcome.nextRound, future] at following
          cases following
          exact elsewhere ofRound

/-- By itself a fresh node of four enters its first round and votes. -/
theorem exists_steps_votedAmongFour
    : ∃ effects,
        Steps ⟨Conductor.charterOfFour.start, none, []⟩ ⟨Conductor.votedAmongFour, none, []⟩
          effects := by
  obtain ⟨_, enters⟩ := Conductor.exists_step_start
  obtain ⟨_, votes⟩ := Conductor.exists_step_entered
  exact ⟨_, (steps_of_step enters []).append (steps_of_step votes [])⟩

/-- The first peer votes in its first round, and only the fourth one in a later round. -/
def ballotsAhead : List Vote :=
  [.numbered 1 ⟨⟨1, 0⟩, [1], [1]⟩, .numbered 4 (.numbered 2)]

/-- A node of four that has voted is given the vote of the fourth peer. -/
def heardAhead : Conductor :=
  (Conductor.votedAmongFour.deliver [.numbered 4 (.numbered 2)]).2.1

theorem reachable_heardAhead
    : Reachable Conductor.charterOfFour (Signed ballotsAhead) ⟨heardAhead, none, [.done ()]⟩ := by
  obtain ⟨_, steps⟩ := exists_steps_votedAmongFour
  have voted : Reachable Conductor.charterOfFour (Signed ballotsAhead) _ :=
    Reachable.start.steps steps
  have told := voted.deliver [.numbered 4 (.numbered 2)] fun vote member _ _ =>
    ⟨vote, List.mem_cons_of_mem _ member, rfl, rfl⟩
  exact told.steps (steps_of_delivered Conductor.votedAmongFour none [] _)

/-- It follows that vote to a round ahead. -/
theorem exists_departure
    : ∃ next outcome rest,
        Step ⟨heardAhead, none, [.done ()]⟩ ⟨next, none, [.done ()]⟩ []
        ∧ heardAhead.takeOutcome? = some (outcome, rest) ∧ outcome.kind = .future
        ∧ heardAhead.gate.book.decision ⟨1, 0⟩ = none
        ∧ heardAhead.round = ⟨1, 0⟩ ∧ next.round = ⟨5, 0⟩ :=
  ⟨_, _, _, .follow rfl (rfl : heardAhead.step 0 = _), rfl, rfl, by decide, rfl, by decide⟩

/-- The vote that the node followed is that of the fourth peer. -/
theorem leaves_by_signed_vote_of_fourth
    : ∃ next : Conductor,
        Step ⟨heardAhead, none, [.done ()]⟩ ⟨next, none, [.done ()]⟩ []
        ∧ heardAhead.round < next.round
        ∧ ∃ outcome rest,
            heardAhead.takeOutcome? = some (outcome, rest) ∧ outcome.kind = .future
            ∧ ∃ key candidate,
                Roster.four.Has key ∧ Signed ballotsAhead key candidate
                ∧ candidate.round = next.round := by
  obtain ⟨next, outcome, rest, step, taken, future, -, own, ahead⟩ := exists_departure
  have leaves : heardAhead.round < next.round := by
    rw [own, ahead]
    decide
  obtain ⟨other, _, taken', -, signed⟩ := leaves_by_signed_vote reachable_heardAhead
    (fun candidate vote signed => by cases signed; rfl) step leaves
  obtain rfl : other = outcome := congrArg Prod.fst (Option.some.inj (taken'.symm.trans taken))
  exact ⟨next, step, leaves, other, rest, taken, future, signed future⟩

/-- A node may leave an open round for one in which no honest peer has voted, nor in a later one. -/
theorem not_leaves_by_honest_vote
    : ¬ ∀ (charter : Charter) (signed : PublicKey → Candidate → Prop) (faulty : Finset PublicKey)
          (station next : Station) (effects : List Effect) (outcome : Outcome) (rest : Conductor),
        (∀ candidate vote, charter.settings.credentials.sign candidate = .ok vote →
          vote.candidate = candidate) →
        faulty.card ≤ (charter.roster.size - 1) / 3 →
        Reachable charter signed station → Step station next effects →
        station.conductor.takeOutcome? = some (outcome, rest) → outcome.kind = .future →
        station.conductor.gate.book.decision station.conductor.round = none →
        station.conductor.round < next.conductor.round →
        ∃ key candidate,
          charter.roster.Has key ∧ key ∉ faulty ∧ signed key candidate
          ∧ next.conductor.round ≤ candidate.round := by
  intro honest
  obtain ⟨next, outcome, rest, step, taken, future, active, own, ahead⟩ := exists_departure
  obtain ⟨key, candidate, -, sound, ⟨vote, member, rfl, rfl⟩, reached⟩ :=
    honest Conductor.charterOfFour (Signed ballotsAhead) {.numbered 4} _ _ _ outcome rest
      (fun candidate vote signed => by cases signed; rfl) (by decide) reachable_heardAhead step
      taken future (by rw [own]; exact active) (by rw [own, ahead]; decide)
  rw [ahead] at reached
  -- The vote of the first peer is of an earlier round, and that of the fourth one is not honest.
  rcases List.mem_cons.mp member with rfl | last
  · exact absurd reached (by decide)
  · obtain rfl := List.mem_singleton.mp last
    exact absurd sound (by decide)

end Quorum.Station
