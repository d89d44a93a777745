import Mathlib.Logic.Relation
import Quorum.Proofs.Agreement.Retries
import Quorum.Proofs.Gate.Phases

/-! Journeys of conductors from round to round, while bundles come in at any time. A conductor never
loses the decision of the round that it is in: it has it among the outcomes that it awaits, and
moves on by it at the latest.
-/

namespace Quorum

/-- What ends a round leads to a later one. -/
theorem Outcome.lt_nextRound {outcome : Outcome} (terminal : outcome.Terminal) {next : Round}
    (following : outcome.nextRound = .ok next)
    : outcome.round < next := by
  have higher (following : outcome.round.nextHeight = .ok next) : outcome.round < next := by
    obtain ⟨height, -⟩ := Round.nextHeight_eq_ok following
    exact .inl (UInt64.lt_iff_toNat_lt.mpr (height ▸ Nat.lt_succ_self _))
  unfold nextRound at following
  cases kind : outcome.kind with
  | commit => exact higher (by rwa [kind] at following)
  | nothing => exact higher (by rwa [kind] at following)
  | reject =>
      rw [kind] at following
      obtain ⟨height, counter⟩ := Round.nextCounter_eq_ok following
      exact .inr ⟨height.symm, UInt64.lt_iff_toNat_lt.mpr (counter ▸ Nat.lt_succ_self _)⟩
  | future => exact absurd kind terminal

namespace Conductor

open Gate (Call Deed)

variable {conductor next : Conductor} {roster : Roster} {effects : List Effect} {limit : Nat}

-----------------------------------------------------------------------------------------
-- Calls to the gate
-----------------------------------------------------------------------------------------

/-- The conductor after a call to its gate. -/
def noting (conductor : Conductor) (deed : Deed) : Conductor :=
  { conductor with gate := deed.after, stream := conductor.stream ++ surfaced deed.effects }

/-- On entering a round the conductor switches its gate to it. -/
theorem step_of_entering (stage : conductor.stage = .entering)
    (arranged : Roster.ofPeers conductor.peers = .ok roster)
    (live : conductor.gate.stopped = false) (limit : Nat)
    : let deed := (Call.switch conductor.round roster.peers).deed conductor.settings conductor.gate
      ∃ found,
        Gate.Switching conductor.round roster.peers conductor.gate
          (.ok found, deed.after, deed.effects)
        ∧ conductor.step limit
          = some (settle roster (.ok found) (conductor.noting deed), deed.effects) := by
  obtain ⟨found, given⟩ :=
    Gate.exists_switch_eq_ok (Roster.ofPeers_again arranged) conductor.round live
  have ends := Gate.switching conductor.round roster.peers conductor.gate
  have calls
      : conductor.call? = some (do
          let result ← Gate.switch conductor.round roster.peers
          return settle roster result) := by
    simp only [call?, stage, arranged]
  refine ⟨found, ?_, ?_⟩
  · simp only [Call.deed, Call.activity, Gate.Activity.run_bind, Gate.Activity.run_pure,
      List.append_nil]
    exact given ▸ ends
  · rw [step_of_call? calls limit]
    simp [Call.deed, Call.activity, perform, noting, given]

/-- In a round that is open the conductor calls for its vote. -/
theorem step_of_voting (stage : conductor.stage = .voting roster) (limit : Nat)
    : let deed :=
        (Call.vote (conductor.propose conductor.round) ⟨roster, none⟩).deed conductor.settings
          conductor.gate
      conductor.step limit
        = some ({ conductor.noting deed with stage := .waiting }, deed.effects) := by
  simp [step, stage, castVote, Call.deed, Call.activity, perform, noting]

/-- A bundle that is handed over is received, and counted apart from that. -/
theorem deliver_eq (conductor : Conductor) (votes : List Vote)
    : (conductor.deliver votes).2.1
      = conductor.noting ((Call.receive votes).deed conductor.settings conductor.gate) := by
  have counted : surfaced (Gate.arrivalCounts votes) = [] := by
    unfold Gate.arrivalCounts
    split <;> rfl
  unfold deliver perform noting Gate.deliver
  cases sound : Bundle.round votes with
  | ok round =>
      simp only [surfaced] at counted
      simp [Except.isOk, Except.toBool, Call.deed, Call.activity, surfaced, counted]
  | error defect =>
      have dropped
          : ((Gate.receive conductor.settings votes).run conductor.gate).2.1 = conductor.gate
            ∧ surfaced ((Gate.receive conductor.settings votes).run conductor.gate).2.2 = [] := by
        unfold Gate.receive
        rw [Gate.run_observe_bind]
        split <;> simp [sound, surfaced]
      simp [Except.isOk, Except.toBool, Call.deed, Call.activity, dropped, counted]

-----------------------------------------------------------------------------------------
-- Outcomes that are awaited
-----------------------------------------------------------------------------------------

/-- During a pause, the decision before it. -/
def delayed : Stage → List Outcome
  | .pausing decision _ => [decision]
  | .entering | .voting _ | .waiting | .failed _ | .stopped => []

/-- The outcomes that the conductor has yet to move on by. -/
def awaited (conductor : Conductor) : List Outcome :=
  delayed conductor.stage ++ conductor.pending ++ conductor.stream

/-- The conductor awaits the decision of the round, if there is one. -/
def Awaits (conductor : Conductor) (round : Round) : Prop :=
  ∀ outcome, conductor.gate.book.decision round = some outcome → outcome ∈ conductor.awaited

theorem awaited_noting (conductor : Conductor) (deed : Deed)
    : (conductor.noting deed).awaited = conductor.awaited ++ surfaced deed.effects := by
  simp [awaited, noting]

theorem Awaits.turn {round : Round} (awaits : conductor.Awaits round) {stage : Stage}
    (same : delayed stage = delayed conductor.stage)
    : Awaits { conductor with stage } round := by
  intro outcome known
  rw [awaited, same]
  exact awaits outcome known

/-- A call that is not a switch, and does not come late for the round, puts a new decision of it on
the stream.
-/
theorem Awaits.noting {round : Round} (awaits : conductor.Awaits round) (settings : Gate.Settings)
    (call : Call) (trimmed : conductor.gate.book.Trimmed)
    (timely : ¬ (call.deed settings conductor.gate).Late round)
    (undiscovered : (call.deed settings conductor.gate).discovered = [])
    : (conductor.noting (call.deed settings conductor.gate)).Awaits round := by
  intro outcome known
  have done := call.done settings conductor.gate
  rcases Deed.decided_before_or_freezes done trimmed known with earlier | freezes
  · rw [awaited_noting]
    exact List.mem_append_left _ (awaits outcome earlier)
  · have recorded := freezes.recorded done
    rw [if_neg timely, Deed.recorded, undiscovered, List.append_nil] at recorded
    rw [awaited_noting, recorded]
    exact List.mem_append_right _ (List.mem_singleton_self outcome)

-----------------------------------------------------------------------------------------
-- Journeys
-----------------------------------------------------------------------------------------

/-- The round that a conductor is in after a step. During a pause it has yet to leave the earlier
one.
-/
def seat (conductor : Conductor) (earlier : Round) : Round :=
  match conductor.stage with
  | .pausing _ _ => earlier
  | .entering | .voting _ | .waiting | .failed _ | .stopped => conductor.round

/-- The conductors that come about from a fresh one, each with the round that it is in. Bundles and
reminders come in between any two steps, and time passes.
-/
inductive Journey (charter : Charter) : Conductor → Round → Prop
  | start : Journey charter charter.start ⟨1, 0⟩
  | step {conductor next : Conductor} {round : Round} {limit : Nat} {effects : List Effect}
    (journey : Journey charter conductor round)
    (step : conductor.step limit = some (next, effects))
    : Journey charter next (next.seat round)
  | deliver {conductor : Conductor} {round : Round} (journey : Journey charter conductor round)
    (votes : List Vote)
    : Journey charter (conductor.deliver votes).2.1 round
  | remind {conductor : Conductor} {round : Round} (journey : Journey charter conductor round)
    (task : Rebroadcast)
    : Journey charter (conductor.perform (Gate.rebroadcast task)).2.1 round
  | wait {conductor : Conductor} {round : Round} (journey : Journey charter conductor round)
    (now : Nat)
    : Journey charter { conductor with now } round

/-- How far the conductor has come in a round, and what the gate knows by then. -/
inductive Leg (conductor : Conductor) (round : Round) : Prop
  | entering (stage : conductor.stage = .entering) (own : conductor.round = round)
    (behind : conductor.gate.book.current < round)
  | voting {roster : Roster} (stage : conductor.stage = .voting roster)
    (own : conductor.round = round) (current : conductor.gate.book.current = round)
    (awaits : conductor.Awaits round)
  | waiting (stage : conductor.stage = .waiting) (own : conductor.round = round)
    (current : conductor.gate.book.current = round) (awaits : conductor.Awaits round)
  | pausing {decision : Outcome} {wake : Nat} (stage : conductor.stage = .pausing decision wake)
    (ahead : round < conductor.round) (current : conductor.gate.book.current = round)
    (awaits : conductor.Awaits round)
  | failed {overflow : Overflow} (stage : conductor.stage = .failed overflow)

theorem follow_round {outcome : Outcome} {later : Round} (following : outcome.nextRound = .ok later)
    (onward : conductor.round < later)
    : (conductor.follow outcome).round = later := by
  simp [follow, following, onward]

/-- The conductor works as it began, on a gate that is not stopped. -/
structure OnCourse (charter : Charter) (conductor : Conductor) (round : Round) : Prop where
  same : conductor.settings = charter.settings
  peers : conductor.peers = charter.peers
  propose : conductor.propose = charter.propose
  run : ∃ deeds, Gate.Run charter.settings charter.window deeds conductor.gate
  live : conductor.gate.stopped = false
  leg : conductor.Leg round

namespace OnCourse

variable {charter : Charter} {round later : Round}

theorem start (charter : Charter) : charter.start.OnCourse charter ⟨1, 0⟩ where
  same := rfl
  peers := rfl
  propose := rfl
  run := ⟨[], .start⟩
  live := rfl
  leg := .entering rfl rfl (by change Round.zero < _; decide)

theorem trimmed (course : conductor.OnCourse charter round) : conductor.gate.book.Trimmed := by
  obtain ⟨deeds, run⟩ := course.run
  exact run.recorded.trimmed

/-- What is stored for the round leads to a later one. -/
theorem leaves (course : conductor.OnCourse charter round) {outcome : Outcome}
    (known : conductor.gate.book.decision round = some outcome)
    : outcome.Terminal ∧ outcome.round = round
      ∧ ∀ later, outcome.nextRound = .ok later →
          round < later
          ∧ ∀ other : Conductor, other.round = round → (other.follow outcome).round = later := by
  obtain ⟨deeds, run⟩ := course.run
  obtain ⟨own, terminal, -⟩ := run.decision_concludes known
  refine ⟨terminal, own, fun later following => ?_⟩
  have onward : round < later := own ▸ outcome.lt_nextRound terminal following
  exact ⟨onward, fun other same => follow_round following (same ▸ onward)⟩

/-- A call leaves the conductor on course, if it comes to a leg by that. -/
theorem noting (course : conductor.OnCourse charter round) (call : Call)
    (due : ∀ deeds, call.Due deeds) (going : call ≠ .stop) {stage : Stage} {pending : List Outcome}
    (leg
      : Leg { conductor.noting (call.deed charter.settings conductor.gate) with stage, pending }
          later)
    : OnCourse charter
        { conductor.noting (call.deed charter.settings conductor.gate) with stage, pending }
        later where
  same := course.same
  peers := course.peers
  propose := course.propose
  run := by
    obtain ⟨deeds, run⟩ := course.run
    exact ⟨_, run.next call (due deeds)⟩
  live := ((call.done charter.settings conductor.gate).stopped_eq going).trans course.live
  leg := leg

/-- Another stage is no call. -/
theorem turn (course : conductor.OnCourse charter round) {place : Round} {stage : Stage} {now : Nat}
    {pending stream : List Outcome}
    (leg : Leg { conductor with round := place, stage, now, pending, stream } later)
    : OnCourse charter { conductor with round := place, stage, now, pending, stream } later :=
  ⟨course.same, course.peers, course.propose, course.run, course.live, leg⟩

theorem enter (course : conductor.OnCourse charter round) (stage : conductor.stage = .entering)
    (own : conductor.round = round) (behind : conductor.gate.book.current < round)
    (step : conductor.step limit = some (next, effects))
    : next.OnCourse charter (next.seat round) := by
  subst own
  have arranged := charter.arranged
  rw [← course.peers] at arranged
  obtain ⟨found, ends, enters⟩ := step_of_entering stage arranged course.live limit
  cases enters.symm.trans step
  rw [course.same] at ends ⊢
  have current := ends.current_eq (.inl behind)
  have stored := ends.decision_eq
  cases found with
  | none =>
      refine course.noting (.switch _ _) (fun _ => trivial) nofun (.voting rfl rfl current ?_)
      intro outcome known
      cases stored.symm.trans known
  | some outcome =>
      refine course.noting (.switch _ _) (fun _ => trivial) nofun (.waiting rfl rfl current ?_)
      intro other known
      cases stored.symm.trans known
      simp [awaited]

theorem vote (course : conductor.OnCourse charter round) (stage : conductor.stage = .voting roster)
    (own : conductor.round = round) (current : conductor.gate.book.current = round)
    (awaits : conductor.Awaits round) (step : conductor.step limit = some (next, effects))
    : next.OnCourse charter (next.seat round) := by
  subst own
  cases (step_of_voting stage limit).symm.trans step
  rw [course.same, course.propose]
  have done := (Call.vote (charter.propose conductor.round) ⟨roster, none⟩).done charter.settings
    conductor.gate
  have moved := done.current_of_vote rfl
  rw [charter.ofRound, show Deed.before _ = conductor.gate from rfl, current, or_self] at moved
  refine course.noting (.vote _ _) (fun _ => trivial) nofun (.waiting rfl rfl moved ?_)
  have voted := awaits.noting charter.settings
    (.vote (charter.propose conductor.round) ⟨roster, none⟩) course.trimmed id rfl
  exact voted.turn (by rw [Conductor.noting, stage]; rfl)

/-- The end of a pause. -/
theorem wake {decision : Outcome} {wake : Nat} (course : conductor.OnCourse charter round)
    (stage : conductor.stage = .pausing decision wake) (ahead : round < conductor.round)
    (current : conductor.gate.book.current = round)
    (step : conductor.step limit = some (next, effects))
    : next.OnCourse charter (next.seat round) := by
  obtain rfl := step_of_pausing stage step
  exact course.turn (.entering rfl rfl (current ▸ ahead))

end OnCourse

theorem exists_takeOutcome? {outcome : Outcome}
    (queued : outcome ∈ conductor.pending ++ conductor.stream)
    : ∃ first pending stream,
        conductor.takeOutcome? = some (first, { conductor with pending, stream })
        ∧ conductor.pending ++ conductor.stream = first :: (pending ++ stream) := by
  cases taken : conductor.takeOutcome? with
  | none =>
      unfold takeOutcome? at taken
      split at taken
      · cases taken
      · cases taken
      · next empty empty' =>
          rw [empty, empty'] at queued
          cases queued
  | some entry =>
      obtain ⟨pending, stream, rest, listed⟩ := takeOutcome?_eq_some taken
      exact ⟨entry.1, pending, stream, by rw [← rest], listed⟩

namespace OnCourse

variable {charter : Charter} {round : Round}

/-- The next outcome ends the journey, is behind, or leads on. Only one that leads nowhere later is
dropped, which the decision of the round is not.
-/
theorem follow (course : conductor.OnCourse charter round) (stage : conductor.stage = .waiting)
    (own : conductor.round = round) (current : conductor.gate.book.current = round)
    (awaits : conductor.Awaits round) (step : conductor.step limit = some (next, effects))
    : next.OnCourse charter (next.seat round) := by
  subst own
  obtain ⟨outcome, pending, stream, rfl, queued⟩ := step_of_waiting stage step
  have awaited_eq : conductor.awaited = outcome :: (pending ++ stream) := by
    rw [awaited, stage, ← queued]
    rfl
  unfold Conductor.follow
  split
  · exact course.turn (.failed rfl)
  next later following =>
  split
  · next onward =>
      simp only
      split
      · refine course.turn (.pausing rfl onward current fun other known => ?_)
        have listed := awaits other known
        rw [awaited_eq] at listed
        exact listed
      · exact course.turn (.entering rfl rfl (current ▸ onward))
  · next behind =>
      simp only [seat, stage]
      refine course.turn (.waiting rfl rfl current fun other known => ?_)
      have listed := awaits other known
      rw [awaited_eq] at listed
      rcases List.mem_cons.mp listed with rfl | later
      · obtain ⟨-, -, leaves⟩ := course.leaves known
        exact absurd (leaves later following).1 behind
      · simpa [awaited, stage, delayed] using later

/-- Each step leaves the conductor on course, one case for each leg. -/
theorem step (course : conductor.OnCourse charter round)
    (step : conductor.step limit = some (next, effects))
    : next.OnCourse charter (next.seat round) := by
  cases course.leg with
  | entering stage own behind => exact course.enter stage own behind step
  | voting stage own current awaits => exact course.vote stage own current awaits step
  | waiting stage own current awaits => exact course.follow stage own current awaits step
  | pausing stage ahead current _ => exact course.wake stage ahead current step
  | failed stage =>
      rw [Conductor.step, stage] at step
      cases step

/-- A bundle does not take the gate to another round, and the decision that it may bring is put on
the stream, unless the conductor has yet to enter the round.
-/
theorem deliver (course : conductor.OnCourse charter round) (votes : List Vote)
    : (conductor.deliver votes).2.1.OnCourse charter round := by
  rw [deliver_eq, course.same]
  refine course.noting (.receive votes) (fun _ => trivial) nofun ?_
  have stays := ((Call.receive votes).done charter.settings conductor.gate).current_of_receive rfl
  have heard (awaits : conductor.Awaits round) (current : conductor.gate.book.current = round) :=
    awaits.noting charter.settings (.receive votes) course.trimmed
      (fun late => Round.lt_irrefl round (current ▸ late)) rfl
  cases course.leg with
  | entering stage own behind => exact .entering stage own (stays.symm ▸ behind)
  | voting stage own current awaits =>
      exact .voting stage own (stays.trans current) (heard awaits current)
  | waiting stage own current awaits =>
      exact .waiting stage own (stays.trans current) (heard awaits current)
  | pausing stage ahead current awaits =>
      exact .pausing stage ahead (stays.trans current) (heard awaits current)
  | failed stage => exact .failed stage

end OnCourse

/-- To send a vote again makes no difference for the conductor. -/
theorem perform_rebroadcast (conductor : Conductor) (task : Rebroadcast)
    : (conductor.perform (Gate.rebroadcast task)).2.1 = conductor := by
  have ends := Gate.ringing task conductor.gate
  have quiet := (Gate.silent_sends task.peers [task.vote]).surfaced
  unfold perform
  generalize (Gate.rebroadcast task).run conductor.gate = ending at ends
  cases ends with
  | spent => simp [surfaced]
  | sent _ _ _ => simp only [quiet, List.append_nil]

/-- A conductor stays on course throughout, by induction on what happens to it. -/
theorem Journey.onCourse {charter : Charter} {round : Round}
    (journey : Journey charter conductor round)
    : conductor.OnCourse charter round := by
  induction journey with
  | start => exact .start charter
  | step _ step ih => exact ih.step step
  | deliver _ votes ih => exact ih.deliver votes
  | remind _ task ih => exact perform_rebroadcast _ task ▸ ih
  | wait _ now ih =>
      refine ih.turn ?_
      cases ih.leg with
      | entering stage own behind => exact .entering stage own behind
      | voting stage own current awaits => exact .voting stage own current awaits
      | waiting stage own current awaits => exact .waiting stage own current awaits
      | pausing stage ahead current awaits => exact .pausing stage ahead current awaits
      | failed stage => exact .failed stage

-----------------------------------------------------------------------------------------
-- Progress
-----------------------------------------------------------------------------------------

/-- The conductor comes to another state by itself. -/
def Leads : Conductor → Conductor → Prop :=
  Relation.ReflTransGen fun conductor next =>
    ∃ limit effects, conductor.step limit = some (next, effects)

/-- A pause ends when it is time. -/
theorem leads_of_pausing {decision : Outcome} {wake : Nat}
    (stage : conductor.stage = .pausing decision wake)
    : conductor.Leads { conductor with now := max conductor.now wake, stage := .entering } :=
  .single ⟨wake, [], by simp [step, stage]⟩

/-- An outcome that leads on takes the conductor to the next round, at the end of the pause. -/
theorem exists_leads_of_onward {outcome : Outcome} {later : Round}
    (following : outcome.nextRound = .ok later) (onward : conductor.round < later)
    : ∃ last, (conductor.follow outcome).Leads last ∧ last.stage = .entering
        ∧ last.round = later := by
  unfold follow
  simp only [following, if_pos onward]
  split
  · exact ⟨_, leads_of_pausing rfl, rfl, rfl⟩
  · exact ⟨_, .refl, rfl, rfl⟩

/-- A conductor that waits goes through its outcomes until one leads on; by induction on their
number.
-/
theorem exists_leads_of_waiting {outcome : Outcome} (stage : conductor.stage = .waiting)
    (queued : outcome ∈ conductor.pending ++ conductor.stream)
    (onward : ∀ later, outcome.nextRound = .ok later → conductor.round < later)
    : ∃ last, conductor.Leads last
        ∧ (last.stage = .entering ∧ conductor.round < last.round
          ∨ ∃ overflow, last.stage = .failed overflow) := by
  generalize count : (conductor.pending ++ conductor.stream).length = length
  induction length generalizing conductor with
  | zero =>
      rw [List.eq_nil_of_length_eq_zero count] at queued
      cases queued
  | succ length ih =>
      obtain ⟨first, pending, stream, taken, listed⟩ := exists_takeOutcome? queued
      have step
          : conductor.step 0 = some (follow { conductor with pending, stream } first, []) := by
        simp [Conductor.step, stage, taken]
      cases following : first.nextRound with
      | error overflow =>
          refine ⟨_, .single ⟨0, [], step⟩, .inr ⟨overflow, ?_⟩⟩
          simp [follow, following]
      | ok later =>
          by_cases ahead : conductor.round < later
          · have onward : Conductor.round { conductor with pending, stream } < later := ahead
            obtain ⟨last, leads, entering, round⟩ := exists_leads_of_onward following onward
            exact ⟨last, .head ⟨0, [], step⟩ leads, .inl ⟨entering, round ▸ ahead⟩⟩
          · have dropped
                : follow { conductor with pending, stream } first
                  = { conductor with pending, stream } := by
              simp [follow, following, ahead]
            rw [listed] at queued count
            have left : outcome ∈ pending ++ stream := by
              rcases List.mem_cons.mp queued with rfl | left
              · exact absurd (onward later following) ahead
              · exact left
            obtain ⟨last, leads, ends⟩ :=
              @ih { conductor with pending, stream } stage left onward (Nat.succ.inj count)
            exact ⟨last, .head ⟨0, [], dropped ▸ step⟩ leads, ends⟩

-----------------------------------------------------------------------------------------
-- Decisions of the round that a conductor is in
-----------------------------------------------------------------------------------------

/-- The conductor waits for an outcome, or for the end of a pause. -/
def Waits (conductor : Conductor) : Prop :=
  match conductor.stage with
  | .waiting | .pausing _ _ => True
  | .entering | .voting _ | .failed _ | .stopped => False

/-- While a conductor waits, its gate is in the same round. Once that is decided, the conductor has
the decision among the outcomes that it awaits, would move on to a later round by it, and comes to a
later round in any case, unless there is none.
-/
theorem decisions_awaited {charter : Charter} {round : Round}
    (journey : Journey charter conductor round) (waits : conductor.Waits)
    : conductor.gate.book.current = round
      ∧ ∀ outcome, conductor.gate.book.decision round = some outcome →
          outcome ∈ conductor.awaited ∧ outcome.Terminal ∧ outcome.round = round
          ∧ (∀ later, outcome.nextRound = .ok later →
              round < later
              ∧ ∀ other : Conductor, other.round = round → (other.follow outcome).round = later)
          ∧ ∃ last, conductor.Leads last
              ∧ (last.stage = .entering ∧ round < last.round
                ∨ ∃ overflow, last.stage = .failed overflow) := by
  have course := journey.onCourse
  cases course.leg with
  | entering stage _ _ | voting stage _ _ _ | failed stage => simp [Waits, stage] at waits
  | waiting stage own current awaits =>
      refine ⟨current, fun outcome known => ?_⟩
      have listed := awaits outcome known
      obtain ⟨terminal, same, leaves⟩ := course.leaves known
      refine ⟨listed, terminal, same, leaves, ?_⟩
      rw [awaited, stage] at listed
      rw [← own] at leaves ⊢
      exact exists_leads_of_waiting stage listed fun later following => (leaves later following).1
  | pausing stage ahead current awaits =>
      refine ⟨current, fun outcome known => ?_⟩
      obtain ⟨terminal, same, leaves⟩ := course.leaves known
      refine ⟨awaits outcome known, terminal, same, leaves, ?_⟩
      exact ⟨_, leads_of_pausing stage, .inl ⟨rfl, ahead⟩⟩

/-- A node among four that votes for the same block in every round. -/
def charterOfFour : Charter where
  settings := .numbered 1
  window := 10
  peers := Roster.four.peers
  roster := .four
  arranged := Roster.ofPeers_four
  propose round := ⟨round, [1], [1]⟩
  ofRound _ := rfl
  delay := 5

/-- The node of four in its first round, before its vote. -/
def enteredAmongFour : Conductor :=
  let called := charterOfFour.start.perform (do
    let result ← Gate.switchUnder ⟨1, 0⟩ .four
    return settle .four result)
  called.1 called.2.1

def votedAmongFour : Conductor :=
  (enteredAmongFour.castVote .four).1

theorem exists_step_start
    : ∃ effects, charterOfFour.start.step 0 = some (enteredAmongFour, effects) := by
  have calls : charterOfFour.start.call? = some _ :=
    call?_of_entering rfl Roster.ofPeers_four Roster.ofPeers_four
  exact ⟨_, step_of_call? calls 0⟩

theorem exists_step_entered
    : ∃ effects, enteredAmongFour.step 0 = some (votedAmongFour, effects) := by
  have stage : enteredAmongFour.stage = .voting .four := rfl
  refine ⟨(enteredAmongFour.castVote .four).2, ?_⟩
  rw [step, stage, votedAmongFour]

/-- The node has voted, and gets the votes of two others. -/
def decidedAmongFour : Conductor :=
  let heard := (votedAmongFour.deliver [.numbered 2 ⟨⟨1, 0⟩, [1], [1]⟩]).2.1
  (heard.deliver [.numbered 3 ⟨⟨1, 0⟩, [1], [1]⟩]).2.1

theorem journey_decided : Journey charterOfFour decidedAmongFour ⟨1, 0⟩ := by
  obtain ⟨_, enters⟩ := exists_step_start
  obtain ⟨_, votes⟩ := exists_step_entered
  exact (((Journey.start.step enters).step votes).deliver _).deliver _

/-- The votes commit the first round, and the node has yet to move on. -/
theorem decisions_awaited_among_four
    : ∃ outcome,
        Journey charterOfFour decidedAmongFour ⟨1, 0⟩
        ∧ decidedAmongFour.Waits ∧ decidedAmongFour.gate.book.decision ⟨1, 0⟩ = some outcome
        ∧ outcome.kind = .commit ∧ outcome ∈ decidedAmongFour.awaited
        ∧ ∃ last, decidedAmongFour.Leads last
            ∧ (last.stage = .entering ∧ ⟨1, 0⟩ < last.round
              ∨ ∃ overflow, last.stage = .failed overflow) := by
  have commits
      : decidedAmongFour.gate.book.decision ⟨1, 0⟩
        = some ⟨.commit, ⟨1, 0⟩, some ⟨⟨1, 0⟩, [1], [1]⟩,
            [.numbered 1 ⟨⟨1, 0⟩, [1], [1]⟩, .numbered 2 ⟨⟨1, 0⟩, [1], [1]⟩,
              .numbered 3 ⟨⟨1, 0⟩, [1], [1]⟩],
            .primary⟩ := by
    decide
  have waits : decidedAmongFour.Waits := trivial
  obtain ⟨-, stored⟩ := decisions_awaited journey_decided waits
  obtain ⟨listed, -, -, -, leads⟩ := stored _ commits
  exact ⟨_, journey_decided, waits, commits, rfl, listed, leads⟩

end Conductor

end Quorum
