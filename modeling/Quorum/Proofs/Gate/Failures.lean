import Quorum.Proofs.Conductor.Calls
import Quorum.Proofs.Gate.Refusals

/-! Failures. Whatever comes in between its steps, a vote that ends in an error, and a bundle that the
gate has no use for, leave the gate as they find it and reach nobody. The same holds of a switch,
unless a stop comes in between: then the switch fails when it has moved the gate already, and still
reaches nobody.
-/

namespace Quorum.Gate

open Activity
open Session (Move own activity? Path Reachable)

/-- The gate stands where it stood, and nothing is done to its surroundings but counting. -/
structure Contained (gate later : Gate) (effects : List Effect) : Prop where
  phase : later.phase = gate.phase
  stopped : later.stopped = gate.stopped
  counts : ∀ effect ∈ effects, effect.Counts

section

variable {gate later : Gate} {effects : List Effect}

theorem spares_of_silent (same : later = gate) (silent : effects = [])
    : Spares gate later effects :=
  ⟨same, by simp [silent]⟩

theorem Spares.contained (spares : Spares gate later effects) : Contained gate later effects :=
  ⟨congrArg Gate.phase spares.1, congrArg Gate.stopped spares.1, spares.2⟩

theorem Session.Move.Inner.contained {move : Move} (inner : move.Inner)
    : Contained move.before move.after move.effects :=
  ⟨inner.phase, inner.stopped, by simp [inner.silent]⟩

end

-----------------------------------------------------------------------------------------
-- Votes
-----------------------------------------------------------------------------------------

section

variable {α : Type} {moves : List Move} {fault : Fault}

/-- On gates where it succeeds, work does not end in an error. -/
theorem Activity.Course.not_error {activity : Activity (Except Fault α)} (meant : Gate → Prop)
    (course : activity.Course moves (.done (.error fault)))
    (succeeds : activity.Gives meant fun result => ∃ value, result = .ok value)
    : ¬ ∀ move ∈ moves, meant move.before := by
  intro found
  obtain ⟨_, same⟩ := course.gives succeeds found
  cases same

variable {settings : Settings}

/-- A vote fails to be cast only if there is one already. -/
theorem spares_of_cast {round : Round} {vote : Vote} {electorate : Electorate}
    (course : (cast settings round vote electorate).Course moves (.done (.error fault)))
    : ∀ move ∈ moves, Spares move.before move.after move.effects := by
  unfold cast at course
  obtain ⟨keeping, moves, rfl, after, effects, course⟩ := course.of_perform
  unfold keepVote at after effects course
  by_cases repeated : ∃ entry ∈ keeping.before.ownVotes, entry.1 = round
  · rw [if_pos repeated] at after effects course
    cases course
    exact List.forall_mem_singleton.mpr (spares_of_silent after effects)
  · rw [if_neg repeated] at course
    refine (course.not_error (fun _ => True) ?_ fun _ _ => trivial).elim
    refine gives_bind _ fun _ => gives_bind _ fun _ => gives_bind _ fun _ => ?_
    refine gives_bind _ fun _ => gives_bind _ fun found => ?_
    have sent (peers : List Peer)
        : Gives (fun _ => True) (fun result => ∃ value, result = .ok value) (do
            send peers [vote]
            if 0 < settings.rebroadcasts ∧ peers ≠ [] then
              emit [.schedule ⟨round, vote, peers⟩]
            return (.ok () : Except Fault Unit)) := by
      refine gives_bind _ fun _ => ?_
      split
      · exact gives_bind _ fun _ => ⟨(), rfl⟩
      · exact ⟨(), rfl⟩
    cases found with
    | none => exact sent _
    | some outcome => exact gives_bind _ fun _ => sent _

/-- A look changes nothing. -/
theorem spares_of_look {β : Type} {view : Gate → β} {continuation : β → Activity α} {value : α}
    (course : (observe view >>= continuation).Course moves (.done value))
    (rest
      : ∀ seen later, (continuation seen).Course later (.done value) →
          ∀ move ∈ later, Spares move.before move.after move.effects)
    : ∀ move ∈ moves, Spares move.before move.after move.effects := by
  obtain ⟨look, later, rfl, same, silent, course⟩ := course.of_perform
  exact List.forall_mem_cons.mpr ⟨spares_of_silent same silent, rest _ later course⟩

/-- All errors of a vote come before its first change. -/
theorem spares_of_vote {candidate : Candidate} {electorate : Electorate}
    (course : (vote settings candidate electorate).Course moves (.done (.error fault)))
    : ∀ move ∈ moves, Spares move.before move.after move.effects := by
  have ended {result : Except Fault Unit} {later : List Move}
      (course : (Activity.done result).Course later (.done (.error fault)))
      : ∀ move ∈ later, Spares move.before move.after move.effects := by
    cases course
    simp
  unfold vote at course
  refine spares_of_look course fun stopped later course => ?_
  split at course
  · exact ended course
  refine spares_of_look course fun stale later course => ?_
  split at course
  · exact ended course
  refine spares_of_look course fun closed later course => ?_
  split at course
  · exact ended course
  cases signed : settings.credentials.sign candidate with
  | error fault =>
      rw [signed] at course
      exact ended course
  | ok vote =>
      rw [signed] at course
      exact spares_of_cast course

end

-----------------------------------------------------------------------------------------
-- Switches
-----------------------------------------------------------------------------------------

/-- Some of the moves found the gate running, and some found it stopped. -/
def Overtaken (moves : List Move) : Prop :=
  (∃ move ∈ moves, move.before.stopped = false) ∧ ∃ move ∈ moves, move.before.stopped = true

/-- A switch fails before its first change, or a stop overtakes it and it has reached nobody. -/
theorem spares_of_switch {moves : List Move} {fault : Fault} {round : Round} {peers : List Peer}
    (course : (switch round peers).Course moves (.done (.error fault)))
    : (∀ move ∈ moves, Spares move.before move.after move.effects)
      ∨ fault = .stopped ∧ Overtaken moves
        ∧ ∀ move ∈ moves, Contained move.before move.after move.effects := by
  unfold switch at course
  obtain ⟨look, moves, rfl, same, silent, course⟩ := course.of_perform
  have looks : Spares look.before look.after look.effects := spares_of_silent same silent
  split at course
  · cases course
    exact .inl (List.forall_mem_singleton.mpr looks)
  next live =>
  cases arranged : Roster.ofPeers peers with
  | error fault =>
      rw [arranged] at course
      cases course
      exact .inl (List.forall_mem_singleton.mpr looks)
  | ok roster =>
      rw [arranged] at course
      obtain ⟨moving, evaluating, last, _, rfl, inner, -, gives⟩ := course.of_enterRound
      rcases gives with gives | ⟨gives, stopped, same, silent⟩
      · cases gives
      · cases gives
        have ends := (spares_of_silent same silent).contained
        refine .inr ⟨rfl, ⟨⟨look, by simp, by simpa using live⟩, last, by simp, stopped⟩, ?_⟩
        refine List.forall_mem_cons.mpr ⟨looks.contained, ?_⟩
        rw [List.append_cons]
        refine List.forall_mem_append.mpr ⟨fun move member => (inner move member).contained, ?_⟩
        exact List.forall_mem_singleton.mpr ends

-----------------------------------------------------------------------------------------
-- Calls among others
-----------------------------------------------------------------------------------------

/-- By its own moves the call fails: a vote or a switch with an error, and a bundle because none of
the gates that it finds has use for it.
-/
inductive Call.Fails (settings : Settings) (moves : List Move) : Call → Prop
  | vote {candidate : Candidate} {electorate : Electorate} {fault : Fault}
    (error
      : ((Call.vote candidate electorate).activity settings).Course moves
          (.done (.voted (.error fault))))
    : Fails settings moves (.vote candidate electorate)
  | switch {round : Round} {peers : List Peer} {fault : Fault}
    (error
      : ((Call.switch round peers).activity settings).Course moves (.done (.switched (.error fault))))
    : Fails settings moves (.switch round peers)
  | receive {votes : List Vote} (useless : Useless settings votes (moves.map (·.before)))
    : Fails settings moves (.receive votes)

namespace Session

variable {settings : Settings} {window : UInt64} {permits : Request → Prop}
  {session later : Session} {moves : List Move}

/-- Whatever is done to the gate in between, the moves of a call that fails leave it as they find it
and do nothing to its surroundings but count. The exception is a switch that a stop overtakes: it
fails because of that, and the moves before that leave the phase and the surroundings alone.
-/
theorem failures_atomic (reachable : Reachable settings window permits session) (call : Call)
    (path : Path settings permits (session.begin (discard (call.activity settings))) moves later)
    (fails : call.Fails settings (own session.underWay.length moves))
    : (∀ move ∈ own session.underWay.length moves, Spares move.before move.after move.effects)
      ∨ (∃ round peers, call = .switch round peers)
        ∧ (call.activity settings).Course (own session.underWay.length moves)
            (.done (.switched (.error .stopped)))
        ∧ Overtaken (own session.underWay.length moves)
        ∧ ∀ move ∈ own session.underWay.length moves,
            Contained move.before move.after move.effects := by
  obtain ⟨rest, -, course⟩ := path.course_begin
  have ordered := ((reachable.steady.begin (call.composed settings |>.bind fun _ => .done _)).path
    path).2
  have poised (move : Move) (member : move ∈ own session.underWay.length moves)
      : move.before.Poised :=
    (ordered.poised move (mem_own.mp member).1).1
  cases fails with
  | vote error =>
      obtain ⟨result, course, same⟩ := error.of_map
      cases same
      exact .inl (spares_of_vote course)
  | @switch round peers fault error =>
      obtain ⟨result, course, same⟩ := error.of_map
      cases same
      rcases spares_of_switch course with spares | ⟨rfl, overtaken, contained⟩
      · exact .inl spares
      · exact .inr ⟨⟨round, peers, rfl⟩, error, overtaken, contained⟩
  | receive useless =>
      rcases course.bind_cases with ⟨_, received, -⟩ | ⟨_, first, _, received, ends, split⟩
      · exact .inl (useless.spares received poised)
      · cases ends
        rw [List.append_nil] at split
        rw [split] at useless poised ⊢
        exact .inl (useless.spares received poised)

/-- A node votes in a round, and is handed votes for a block of a later one. -/
def heldRequests : List Request :=
  [.vote (.empty ⟨4, 0⟩) ⟨.four, none⟩,
    .deliver [.numbered 2 (.numbered 1), .numbered 3 (.numbered 1), .numbered 4 (.numbered 1)]]

/-- Three votes are held for a round when a switch to it evaluates them. After it has decided the
round and before it records that, the gate is stopped.
-/
theorem exists_overtaken_switch
    : ∃ (session later : Session) (moves : List Move),
        let call := Call.switch ⟨5, 0⟩ Roster.four.peers
        Reachable (.numbered 1) 10 (fun _ => True) session
        ∧ Path (.numbered 1) (fun _ => True)
            (session.begin (discard (call.activity (.numbered 1)))) moves later
        ∧ call.Fails (.numbered 1) (own session.underWay.length moves)
        ∧ ∃ move ∈ own session.underWay.length moves,
            move.before.book.decision ⟨5, 0⟩ = none
            ∧ ∃ outcome, move.after.book.decision ⟨5, 0⟩ = some outcome := by
  have shape
      : (Call.switch ⟨5, 0⟩ Roster.four.peers).activity (.numbered 1)
        = (do return .switched (← switchUnder ⟨5, 0⟩ .four)) := by
    simp only [Call.activity, switch_of_arranged Roster.ofPeers_four]
  obtain ⟨⟨_, underWay, log⟩, reachable, rfl⟩ :=
    @exists_reachable_after (.numbered 1) 10 (fun _ => True) heldRequests (by simp)
  generalize call : (Call.switch ⟨5, 0⟩ Roster.four.peers).activity (.numbered 1) = activity at shape
  obtain ⟨moves, later, path, moved, -⟩ :=
    @exists_path_stopped (.numbered 1) (fun _ => True) trivial
      ⟨after (.numbered 1) 10 heldRequests, underWay, log⟩ (discard activity) 5 1
  refine ⟨_, later, moves, reachable, call.symm ▸ path, ?_, ?_⟩
  · refine @Call.Fails.switch _ _ _ _ .stopped ?_
    rw [call, moved]
    subst shape
    exact (Course.row _ 5 _ _).append (Course.row _ 1 _ _)
  · rw [moved]
    subst shape
    exact ⟨_, .tail _ (.tail _ (.tail _ (.tail _ (.head _)))), rfl, _, rfl⟩

/-- The switch that is overtaken has reached nobody. -/
theorem failures_atomic_but_overtaken
    : ∃ (session later : Session) (moves : List Move),
        let call := Call.switch ⟨5, 0⟩ Roster.four.peers
        Path (.numbered 1) (fun _ => True)
            (session.begin (discard (call.activity (.numbered 1)))) moves later
        ∧ call.Fails (.numbered 1) (own session.underWay.length moves)
        ∧ Overtaken (own session.underWay.length moves)
        ∧ ∀ move ∈ own session.underWay.length moves,
            Contained move.before move.after move.effects := by
  obtain ⟨session, later, moves, reachable, path, fails, move, member, before, outcome, after⟩ :=
    exists_overtaken_switch
  rcases failures_atomic reachable _ path fails with spares | ⟨-, -, overtaken, contained⟩
  · rw [(spares move member).1, before] at after
    cases after
  · exact ⟨session, later, moves, path, fails, overtaken, contained⟩

/-- Not every call that fails leaves the gate as it finds it. -/
theorem not_failures_atomic
    : ¬ ∀ (settings : Settings) (window : UInt64) (permits : Request → Prop)
          (session later : Session) (moves : List Move) (call : Call),
        Reachable settings window permits session →
        Path settings permits (session.begin (discard (call.activity settings))) moves later →
        call.Fails settings (own session.underWay.length moves) →
        ∀ move ∈ own session.underWay.length moves, move.after = move.before := by
  intro atomic
  obtain ⟨session, later, moves, reachable, path, fails, move, member, before, outcome, after⟩ :=
    exists_overtaken_switch
  rw [atomic _ _ _ _ _ _ _ reachable path fails move member, before] at after
  cases after

end Session

end Quorum.Gate
