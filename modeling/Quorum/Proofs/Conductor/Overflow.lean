import Quorum.Proofs.Conductor.Departure

/-! Rounds at the end of their range. A node comes closer to the end by one height or one retry with
each round that it leaves, or by following a signed vote. Where neither brings it there, all
outcomes lead to a next round; but one vote for the last retry of a height and its rejection are
enough for the next round not to exist.
-/

namespace Quorum

-----------------------------------------------------------------------------------------
-- Limits
-----------------------------------------------------------------------------------------

/-- Height and counter do not exceed two limits. -/
structure Round.Within (high low : Nat) (round : Round) : Prop where
  height : round.height.toNat ≤ high
  counter : round.counter.toNat ≤ low

section

variable {high low : Nat}

theorem Round.Within.mono {round : Round} (within : round.Within high low) {higher lower : Nat}
    (high_le : high ≤ higher) (low_le : low ≤ lower)
    : round.Within higher lower :=
  ⟨Nat.le_trans within.height high_le, Nat.le_trans within.counter low_le⟩

/-- The next round is at most one height or one retry further. -/
theorem Round.Within.nextRound {outcome : Outcome} {next : Round}
    (within : outcome.round.Within high low) (following : outcome.nextRound = .ok next)
    : next.Within (high + 1) (low + 1) := by
  have higher (following : outcome.round.nextHeight = .ok next)
      : next.Within (high + 1) (low + 1) := by
    obtain ⟨height, counter⟩ := Round.nextHeight_eq_ok following
    refine ⟨height ▸ Nat.succ_le_succ within.height, ?_⟩
    rw [counter]
    exact Nat.zero_le _
  unfold Outcome.nextRound at following
  split at following
  · exact higher following
  · exact higher following
  · obtain ⟨height, counter⟩ := Round.nextCounter_eq_ok following
    refine ⟨?_, counter ▸ Nat.succ_le_succ within.counter⟩
    rw [height]
    exact Nat.le_succ_of_le within.height
  · cases following
    exact within.mono (Nat.le_succ high) (Nat.le_succ low)

theorem Word.add_one_of_room {word : UInt64} (room : word.toNat + 1 < UInt64.size)
    : Word.add word 1 = .ok (word + 1) :=
  if_pos room

/-- Below the end of the range there is a next round. -/
theorem Round.Within.exists_nextRound {outcome : Outcome} (within : outcome.round.Within high low)
    (below : high + 1 < UInt64.size) (below' : low + 1 < UInt64.size)
    : ∃ next, outcome.nextRound = .ok next := by
  have height : outcome.round.height.toNat + 1 < UInt64.size :=
    Nat.lt_of_le_of_lt (Nat.succ_le_succ within.height) below
  have counter : outcome.round.counter.toNat + 1 < UInt64.size :=
    Nat.lt_of_le_of_lt (Nat.succ_le_succ within.counter) below'
  unfold Outcome.nextRound Round.nextHeight Round.nextCounter
  rw [Word.add_one_of_room height, Word.add_one_of_room counter]
  split <;> exact ⟨_, rfl⟩

/-- An outcome is of a round that somebody signed a vote of. -/
theorem Outcome.Backed.within {roster : Roster} {outcome : Outcome}
    (backed : outcome.Backed roster fun _ candidate => candidate.round.Within high low)
    : outcome.round.Within high low := by
  cases backed with
  | decided choices backed decides =>
      obtain ⟨key, candidate, -, choice⟩ := decides.exists_choice
      rw [← backed.ofRound key candidate choice]
      exact backed.signed key candidate choice
  | future _ _ candidate voted ofRound =>
      rw [← ofRound]
      exact voted

end

namespace Station

open Conductor (Charter)

variable {charter : Charter} {signed : PublicKey → Candidate → Prop} {station next : Station}
  {effects : List Effect} {count high low : Nat}

-----------------------------------------------------------------------------------------
-- Nodes and the number of their departures
-----------------------------------------------------------------------------------------

/-- The nodes that come about from a fresh one and have left so many rounds. -/
inductive Trek (charter : Charter) (signed : PublicKey → Candidate → Prop) : Nat → Station → Prop
  | start : Trek charter signed 0 ⟨charter.start, none, []⟩
  | stay {count : Nat} {station next : Station} {effects : List Effect}
    (trek : Trek charter signed count station) (step : Step station next effects)
    (same : next.conductor.round = station.conductor.round)
    : Trek charter signed count next
  | leave {count : Nat} {station next : Station} {effects : List Effect}
    (trek : Trek charter signed count station) (step : Step station next effects)
    (later : station.conductor.round < next.conductor.round)
    : Trek charter signed (count + 1) next
  | deliver {count : Nat} {station : Station} (trek : Trek charter signed count station)
    (votes : List Vote)
    (genuine
      : ∀ vote ∈ votes, charter.settings.credentials.accepts vote = true →
          charter.roster.Has vote.key → signed vote.key vote.candidate)
    : Trek charter signed count (station.assign (Gate.deliver charter.settings votes))
  | remind {count : Nat} {station : Station} (trek : Trek charter signed count station)
    (task : Rebroadcast)
    : Trek charter signed count (station.assign (Gate.rebroadcast task))

theorem Trek.reachable (trek : Trek charter signed count station)
    : Reachable charter signed station := by
  induction trek with
  | start => exact .start
  | stay _ step _ ih => exact ih.work step
  | leave _ step _ ih => exact ih.work step
  | deliver _ votes genuine ih => exact ih.deliver votes genuine
  | remind _ task ih => exact ih.remind task

/-- Each node has left some number of rounds. -/
theorem Reachable.exists_trek (reachable : Reachable charter signed station)
    : ∃ count, Trek charter signed count station := by
  induction reachable with
  | start => exact ⟨0, .start⟩
  | work reachable step ih =>
      obtain ⟨count, trek⟩ := ih
      rcases (reachable.advances step).le with later | same
      · exact ⟨count + 1, trek.leave step later⟩
      · exact ⟨count, trek.stay step same.symm⟩
  | deliver _ votes genuine ih =>
      obtain ⟨count, trek⟩ := ih
      exact ⟨count, trek.deliver votes genuine⟩
  | remind _ task ih =>
      obtain ⟨count, trek⟩ := ih
      exact ⟨count, trek.remind task⟩

theorem Reachable.le_of_steps (reachable : Reachable charter signed station)
    (steps : Steps station next effects)
    : station.conductor.round ≤ next.conductor.round := by
  induction steps with
  | none _ => exact Round.le_refl _
  | next first _ ih =>
      exact Round.le_trans (reachable.advances first).le (ih (reachable.work first))

/-- What a node does in a row in one round is no departure; by induction on its steps, none of
which goes back.
-/
theorem Trek.stays (trek : Trek charter signed count station) (steps : Steps station next effects)
    (same : next.conductor.round = station.conductor.round)
    : Trek charter signed count next := by
  induction steps with
  | none _ => exact trek
  | @next station middle last _ _ first rest ih =>
      have onward := (trek.reachable.advances first).le
      have further := (trek.reachable.work first).le_of_steps rest
      rw [same] at further
      have here := Round.le_antisymm further onward
      exact ih (trek.stay first here) (same.trans here.symm)

-----------------------------------------------------------------------------------------
-- Rounds in range
-----------------------------------------------------------------------------------------

/-- If no peer has signed a vote beyond two limits, a node is beyond them by at most the number of
rounds it has left, and so is all that backs it. By induction on what happens to it, for all further
limits at once, as what it works on then must keep to these as well.
-/
theorem Trek.within (trek : Trek charter signed count station)
    (signs
      : ∀ candidate vote, charter.settings.credentials.sign candidate = .ok vote →
          vote.candidate = candidate)
    (bounded
      : ∀ key candidate, charter.roster.Has key → signed key candidate →
          candidate.round.Within high low)
    (positive : 1 ≤ high)
    : station.conductor.round.Within (high + count) (low + count)
      ∧ ∀ further, count ≤ further →
          station.Backed charter fun _ candidate =>
            candidate.round.Within (high + further) (low + further) := by
  have own {count further : Nat} {round : Round} (within : round.Within (high + count) (low + count))
      (more : count ≤ further)
      : charter.Signs (fun _ candidate => candidate.round.Within (high + further) (low + further))
          round := by
    intro vote signed
    rw [signs _ _ signed, charter.ofRound]
    exact within.mono (Nat.add_le_add_left more high) (Nat.add_le_add_left more low)
  induction trek with
  | start => exact ⟨⟨positive, Nat.zero_le _⟩, fun _ _ => backed_start charter _⟩
  | stay _ step same ih =>
      obtain ⟨within, backed⟩ := ih
      rw [same]
      exact ⟨within, fun further more => ((backed further more).step (own within more) step).1⟩
  | @leave count station next _ _ step later ih =>
      obtain ⟨within, backed⟩ := ih
      refine ⟨?_, fun further more => ?_⟩
      · have now := backed count (Nat.le_refl count)
        have advances := (now.step (own within (Nat.le_refl count)) step).2.2
        generalize next.conductor.round = round at advances later
        cases advances with
        | stays => exact absurd later (Round.lt_irrefl _)
        | leads taken following _ =>
            exact (now.conductor.takeOutcome? taken).2.within.nextRound following
      · have more := Nat.le_of_succ_le more
        exact ((backed further more).step (own within more) step).1
  | deliver _ votes genuine ih =>
      obtain ⟨within, backed⟩ := ih
      refine ⟨within, fun further more => ?_⟩
      refine (backed further more).assign (Gate.obeys_deliver _ fun vote inside accepted has => ?_)
      have limits := bounded vote.key vote.candidate has (genuine vote inside accepted has)
      exact limits.mono (Nat.le_add_right high further) (Nat.le_add_right low further)
  | remind _ task ih =>
      obtain ⟨within, backed⟩ := ih
      exact ⟨within, fun further more => (backed further more).assign (Gate.obeys_rebroadcast task)⟩

/-- If no peer has signed a vote beyond two limits, and a node has not left as many rounds as would
take it from there to the end of the range, then each outcome that it will follow leads to a next
round.
-/
theorem rounds_in_range (trek : Trek charter signed count station)
    (signs
      : ∀ candidate vote, charter.settings.credentials.sign candidate = .ok vote →
          vote.candidate = candidate)
    (bounded
      : ∀ key candidate, charter.roster.Has key → signed key candidate →
          candidate.round.Within high low)
    (positive : 1 ≤ high) (below : high + count + 1 < UInt64.size)
    (below' : low + count + 1 < UInt64.size)
    : station.conductor.round.Within (high + count) (low + count)
      ∧ ∀ outcome ∈ station.conductor.pending ++ station.conductor.stream,
          ∃ next, outcome.nextRound = .ok next := by
  obtain ⟨within, backed⟩ := trek.within signs bounded positive
  refine ⟨within, fun outcome queued => ?_⟩
  have now := (backed count (Nat.le_refl count)).conductor
  exact (now.outcomes outcome queued).within.exists_nextRound below below'

theorem trek_heardAhead
    : Trek Conductor.charterOfFour (Signed ballotsAhead) 0 ⟨heardAhead, none, [.done ()]⟩ := by
  obtain ⟨_, steps⟩ := exists_steps_votedAmongFour
  have voted : Trek Conductor.charterOfFour (Signed ballotsAhead) 0 _ :=
    Trek.start.stays steps rfl
  have told := voted.deliver [.numbered 4 (.numbered 2)] fun vote member _ _ =>
    ⟨vote, List.mem_cons_of_mem _ member, rfl, rfl⟩
  exact told.stays (steps_of_delivered Conductor.votedAmongFour none [] _) rfl

/-- The node of four that was given a vote of height 5 can follow it. -/
theorem rounds_in_range_of_fourth
    : ∃ outcome ∈ heardAhead.pending ++ heardAhead.stream,
        outcome.kind = .future ∧ ∃ next, outcome.nextRound = .ok next := by
  obtain ⟨_, outcome, rest, _, taken, future, _⟩ := exists_departure
  obtain ⟨pending, stream, _, queued⟩ := Conductor.takeOutcome?_eq_some taken
  have bounded (key : PublicKey) (candidate : Candidate) (_ : Roster.four.Has key)
      (voted : Signed ballotsAhead key candidate)
      : candidate.round.Within 5 0 := by
    obtain ⟨vote, member, rfl, rfl⟩ := voted
    rcases List.mem_cons.mp member with rfl | last
    · exact ⟨by decide, by decide⟩
    · obtain rfl := List.mem_singleton.mp last
      exact ⟨by decide, by decide⟩
  obtain ⟨-, onward⟩ :=
    rounds_in_range trek_heardAhead (fun candidate vote signed => by cases signed; rfl) bounded
      (by decide) (by decide) (by decide)
  have member : outcome ∈ heardAhead.pending ++ heardAhead.stream := by
    rw [queued]
    exact List.mem_cons_self
  exact ⟨outcome, member, future, onward outcome member⟩

-----------------------------------------------------------------------------------------
-- The end of the range
-----------------------------------------------------------------------------------------

/-- The last retry of the first height. -/
def lastRetry : Round :=
  ⟨1, 18446744073709551615⟩

/-- Two peers vote in it, each for a block of its own. -/
def lastBallots : List Vote :=
  [.numbered 4 ⟨lastRetry, [2], [2]⟩, .numbered 2 ⟨lastRetry, [3], [3]⟩]

/-- A node of four that has voted is given the first of these votes. -/
def heardLast : Conductor :=
  (Conductor.votedAmongFour.deliver [.numbered 4 ⟨lastRetry, [2], [2]⟩]).2.1

/-- It has followed that vote. -/
def followedLast : Conductor :=
  { heardLast with round := lastRetry, stage := .entering, stream := [] }

/-- It has entered the round. -/
def enteredLast : Conductor :=
  let called := followedLast.perform (do
    let result ← Gate.switchUnder lastRetry .four
    return Conductor.settle .four result)
  called.1 called.2.1

/-- It has voted, and is given the other vote. -/
def rejectedLast : Conductor :=
  ((enteredLast.castVote .four).1.deliver [.numbered 2 ⟨lastRetry, [3], [3]⟩]).2.1

theorem reachable_rejectedLast
    : ∃ others,
        Reachable Conductor.charterOfFour (Signed lastBallots) ⟨rejectedLast, none, others⟩ := by
  obtain ⟨_, steps⟩ := exists_steps_votedAmongFour
  have voted : Reachable Conductor.charterOfFour (Signed lastBallots) _ :=
    Reachable.start.steps steps
  have told := voted.deliver [.numbered 4 ⟨lastRetry, [2], [2]⟩] fun vote member _ _ =>
    ⟨vote, List.mem_append_left [_] member, rfl, rfl⟩
  have heard := told.steps (steps_of_delivered Conductor.votedAmongFour none [] _)
  have followed := heard.work (.follow rfl (rfl : heardLast.step 0 = some (followedLast, [])))
  have calls : followedLast.call? = some _ :=
    Conductor.call?_of_entering rfl Roster.ofPeers_four Roster.ofPeers_four
  have switched := followed.steps (steps_of_step (Conductor.step_of_call? calls 0) [.done ()])
  have ballots : Conductor.step enteredLast 0 = some (enteredLast.castVote .four) := rfl
  have ready := switched.steps (steps_of_step ballots [.done ()])
  have told' := ready.deliver [.numbered 2 ⟨lastRetry, [3], [3]⟩] fun vote member _ _ =>
    ⟨vote, List.mem_cons_of_mem _ member, rfl, rfl⟩
  exact ⟨_, told'.steps (steps_of_delivered (enteredLast.castVote .four).1 none [.done ()] _)⟩

/-- The three votes for three blocks reject the round, and there is no next one. -/
theorem exists_overflow
    : ∃ outcome rest,
        rejectedLast.takeOutcome? = some (outcome, rest)
        ∧ outcome.nextRound = .error .addition
        ∧ rejectedLast.step 0 = some (rest.follow outcome, [])
        ∧ (rest.follow outcome).stage = .failed .addition :=
  ⟨_, _, rfl, rfl, rfl, rfl⟩

/-- An outcome that a node will follow may not lead to a next round. -/
theorem not_rounds_in_range
    : ¬ ∀ (charter : Charter) (signed : PublicKey → Candidate → Prop) (station : Station)
          (outcome : Outcome) (rest : Conductor),
        (∀ candidate vote, charter.settings.credentials.sign candidate = .ok vote →
          vote.candidate = candidate) →
        Reachable charter signed station →
        station.conductor.takeOutcome? = some (outcome, rest) →
        ∃ next, outcome.nextRound = .ok next := by
  intro always
  obtain ⟨others, reachable⟩ := reachable_rejectedLast
  obtain ⟨outcome, rest, taken, overflow, -⟩ := exists_overflow
  obtain ⟨next, following⟩ := always Conductor.charterOfFour (Signed lastBallots) _ outcome rest
    (fun candidate vote signed => by cases signed; rfl) reachable taken
  rw [overflow] at following
  cases following

end Station

end Quorum
