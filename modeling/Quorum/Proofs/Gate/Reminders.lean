import Quorum.Gate.Reminder
import Quorum.Proofs.Gate.Ballots
import Quorum.Proofs.Gate.Retention
import Quorum.Proofs.Roster.Support

/-! Reminders of own votes. A vote that is cast asks for one reminder, which rings some times at
most. As long as its round is open and the current one a ring sends the vote again. Once that is
over it is so for good, so that no ring of that round sends anything any more, whatever is done in
other rounds.
-/

namespace Quorum

/-- No peer occurs twice in the union of two rosters. -/
theorem Electorate.nodup_peers (electorate : Electorate) : electorate.peers.Nodup := by
  have nodup (roster : Roster) : roster.peers.Nodup := roster.distinctKeys.of_map
  unfold peers
  cases electorate.alternative with
  | none => exact nodup _
  | some alternative =>
      refine List.nodup_append'.mpr ⟨nodup _, (nodup alternative).filter _, ?_⟩
      intro peer primary kept
      have differs := of_decide_eq_true (List.mem_filter.mp kept).2
      exact differs (List.mem_map_of_mem primary)

namespace Gate

-----------------------------------------------------------------------------------------
-- Rounds whose votes are sent again
-----------------------------------------------------------------------------------------

/-- The own vote of the round is to be sent again when a reminder of it rings. -/
structure Insists (gate : Gate) (round : Round) : Prop where
  live : gate.stopped = false
  current : gate.book.current = round
  active : ¬ gate.book.Closed round

theorem run_rebroadcast_of_insists {task : Rebroadcast} {gate : Gate}
    (insists : gate.Insists task.round)
    : (rebroadcast task).run gate = (true, gate, task.peers.map (.send · [task.vote])) := by
  obtain ⟨live, current, active⟩ := insists
  simp [rebroadcast, live, current, active, run_send live]

theorem run_rebroadcast_of_not_insists {task : Rebroadcast} {gate : Gate}
    (silent : ¬ gate.Insists task.round)
    : (rebroadcast task).run gate = (false, gate, []) := by
  have ends := ringing task gate
  generalize (rebroadcast task).run gate = ending at ends ⊢
  cases ends with
  | spent => rfl
  | sent live active current => exact absurd ⟨live, current, active⟩ silent

/-- The own vote of the round is not sent again any more. -/
inductive Over (gate : Gate) (round : Round) : Prop
  | stopped (halted : gate.stopped = true)
  | closed (closed : gate.book.Closed round)
  | passed (passed : round < gate.book.current)

theorem Over.not_insists {gate : Gate} {round : Round} (ended : gate.Over round)
    : ¬ gate.Insists round := by
  rintro ⟨live, current, active⟩
  cases ended with
  | stopped halted => cases live.symm.trans halted
  | closed closed => exact active closed
  | passed passed => exact Round.lt_irrefl round (current ▸ passed)

/-- The votes of a gate are sent again until their rounds are over. -/
theorem Remembers.over {gate : Gate} {round : Round} (remembers : gate.Remembers round)
    (missed : ¬ gate.Insists round)
    : gate.Over round := by
  cases halted : gate.stopped with
  | true => exact .stopped halted
  | false =>
      by_cases closed : gate.book.Closed round
      · exact .closed closed
      · refine .passed (Round.lt_of_le_of_ne remembers.reached ?_)
        rintro rfl
        exact missed ⟨halted, rfl, closed⟩

/-- What is over stays so, whatever is done. -/
theorem Over.deed {settings : Settings} {deed : Deed} (done : deed.Done settings) {round : Round}
    (ended : deed.before.Over round)
    : deed.after.Over round := by
  cases ended with
  | stopped halted => exact .stopped (done.after_eq_of_stopped halted ▸ halted)
  | closed closed => exact .closed (done.grows.closed closed)
  | passed passed =>
      refine .passed (by_contra fun kept => ?_)
      have back := Round.le_trans done.grows.current (Round.not_lt.mp kept)
      exact Round.lt_irrefl _ (Round.lt_of_le_of_lt back passed)

-----------------------------------------------------------------------------------------
-- What votes ask for
-----------------------------------------------------------------------------------------

/-- The peers that a vote is sent to. -/
def recipients (vote : Vote) (electorate : Electorate) : List Peer :=
  electorate.peers.filter fun peer => decide (peer.key ≠ vote.key)

/-- A call has cast the vote of a task, which goes to the same peers again. -/
structure Deed.Assigns (settings : Settings) (deed : Deed) (task : Rebroadcast) : Prop where
  casts : deed.Casts settings task.round task.vote
  peers
    : ∃ candidate electorate,
        deed.call = .vote candidate electorate ∧ task.peers = recipients task.vote electorate
  addressed : task.peers ≠ []
  repeated : 0 < settings.rebroadcasts

theorem Deed.Done.assigns {settings : Settings} {deed : Deed} (done : deed.Done settings)
    {task : Rebroadcast} (scheduled : .schedule task ∈ deed.effects)
    : deed.Assigns settings task := by
  have casts := casts_of_schedule done scheduled
  obtain ⟨-, candidate, electorate, call, -⟩ := id casts
  cases done with
  | vote ends =>
      cases call
      cases ends with
      | refused _ => cases scheduled
      | cast _ _ _ _ _ tally =>
          rcases List.mem_append.mp scheduled with early | posted
          · exact (tally.inward _ early).elim
          · rcases List.mem_append.mp posted with sent | asked
            · simp at sent
            · split at asked
              · next worth =>
                  cases List.mem_singleton.mp asked
                  exact ⟨casts, ⟨_, _, rfl, rfl⟩, worth.2, worth.1⟩
              · cases asked
  | switch _ | receive _ | rebroadcast _ | stop _ => cases call

-----------------------------------------------------------------------------------------
-- Rings
-----------------------------------------------------------------------------------------

/-- The call is a ring of a reminder of the round. -/
def Call.Rings (round : Round) : Call → Prop
  | .rebroadcast task => task.round = round
  | .vote _ _ | .switch _ _ | .receive _ | .stop => False

instance (round : Round) (call : Call) : Decidable (call.Rings round) :=
  match call with
  | .rebroadcast task => inferInstanceAs (Decidable (task.round = round))
  | .vote _ _ | .switch _ _ | .receive _ | .stop => inferInstanceAs (Decidable False)

theorem Call.Rings.exists_task {round : Round} {call : Call} (rings : call.Rings round)
    : ∃ task, call = .rebroadcast task ∧ task.round = round := by
  cases call with
  | rebroadcast task => exact ⟨task, rfl, rings⟩
  | vote _ _ | switch _ _ | receive _ | stop => exact rings.elim

theorem Call.effects_rebroadcast (settings : Settings) (task : Rebroadcast) (gate : Gate)
    : ((Call.rebroadcast task).deed settings gate).effects
      = ((Gate.rebroadcast task).run gate).2.2 := by
  simp [deed, activity]

section

variable {settings : Settings} {window : UInt64} {deeds : List Deed} {gate : Gate}

/-- A task that is done was assigned before, and its round is one that the gate has voted in. -/
theorem Run.assigned (run : Run settings window deeds gate) {task : Rebroadcast}
    (due : (Call.rebroadcast task).Due deeds)
    : gate.Remembers task.round ∧ ∃ deed ∈ deeds, deed.Assigns settings task := by
  obtain ⟨deed, member, scheduled⟩ := due
  have assigns := (run.done deed member).assigns scheduled
  refine ⟨run.votedRounds.2 task.round ?_, deed, member, assigns⟩
  exact List.mem_filterMap.mpr ⟨deed, member, assigns.casts.1⟩

/-- A ring sends something just if its round is current and open. -/
theorem Run.rings (run : Run settings window deeds gate) {task : Rebroadcast}
    (due : (Call.rebroadcast task).Due deeds)
    : ((Call.rebroadcast task).deed settings gate).effects ≠ [] ↔ gate.Insists task.round := by
  obtain ⟨-, deed, -, assigns⟩ := run.assigned due
  rw [Call.effects_rebroadcast]
  by_cases insists : gate.Insists task.round
  · simp [run_rebroadcast_of_insists insists, insists, assigns.addressed]
  · simp [run_rebroadcast_of_not_insists insists, insists]

theorem Run.insists (run : Run settings window deeds gate)
    : ∀ deed ∈ deeds, ∀ round, deed.call.Rings round →
        (deed.effects ≠ [] ↔ deed.before.Insists round) := by
  induction run with
  | start => simp
  | next run call due ih =>
      refine List.forall_mem_append.mpr ⟨ih, List.forall_mem_singleton.mpr fun round rings => ?_⟩
      obtain ⟨task, rfl, rfl⟩ := Call.Rings.exists_task rings
      exact run.rings due

/-- After a ring that sent nothing its round is over, so that no later one sends anything; by
induction on the calls.
-/
theorem Run.silenced (run : Run settings window deeds gate) (round : Round)
    : (∀ deed ∈ deeds, deed.call.Rings round → deed.effects = [] → gate.Over round)
      ∧ deeds.Pairwise fun earlier later =>
          earlier.call.Rings round → earlier.effects = [] → later.call.Rings round →
            later.effects = [] := by
  induction run with
  | start => simp
  | @next deeds gate run call due ih =>
      obtain ⟨ended, silent⟩ := ih
      have kept := fun deed member rings missed =>
        (ended deed member rings missed).deed (call.done settings gate)
      rw [List.pairwise_append, List.forall_mem_append]
      refine ⟨⟨kept, List.forall_mem_singleton.mpr ?_⟩, silent, List.pairwise_singleton _ _, ?_⟩
      · intro rings missed
        obtain ⟨task, rfl, rfl⟩ := Call.Rings.exists_task rings
        have mute := mt (run.rings due).mpr (not_not.mpr missed)
        exact ((run.assigned due).1.over mute).deed (Call.done ..)
      · intro earlier member last own rings missed rings'
        obtain rfl := List.mem_singleton.mp own
        obtain ⟨task, rfl, rfl⟩ := Call.Rings.exists_task rings'
        have mute := (ended earlier member rings missed).not_insists
        exact not_not.mp (mt (run.rings due).mp mute)

end

-----------------------------------------------------------------------------------------
-- Postings
-----------------------------------------------------------------------------------------

/-- What is sent, and to whom. -/
def sends (effects : List Effect) : List (Peer × List Vote) :=
  effects.filterMap fun
    | .send peer votes => some (peer, votes)
    | _ => none

theorem sends_map (peers : List Peer) (votes : List Vote)
    : sends (peers.map (.send · votes)) = peers.map (·, votes) := by
  rw [sends, List.filterMap_map]
  exact congrFun List.filterMap_eq_map peers

theorem sends_of_inward {effects : List Effect} (inward : ∀ effect ∈ effects, effect.Inward)
    : sends effects = [] := by
  refine List.filterMap_eq_nil_iff.mpr fun effect member => ?_
  have inward := inward effect member
  cases effect with
  | send _ _ | schedule _ => exact inward.elim
  | surface _ | commit _ _ | count _ _ => rfl

/-- What a vote or a ring sends of the own vote of a round, and to whom. -/
def Deed.postings (round : Round) (deed : Deed) : List (Peer × List Vote) :=
  match deed.call with
  | .vote candidate _ => if candidate.round = round then sends deed.effects else []
  | .rebroadcast task => if task.round = round then sends deed.effects else []
  | .switch _ _ | .receive _ | .stop => []

/-- The ways in which a call can send the own vote of a round. -/
inductive Deed.Posts (settings : Settings) (round : Round) (deed : Deed) : Prop
  | silent (none : deed.postings round = [])
  | first {candidate : Candidate} {electorate : Electorate} {vote : Vote}
    (call : deed.call = .vote candidate electorate) (casts : deed.Casts settings round vote)
    (sent : deed.postings round = (recipients vote electorate).map (·, [vote]))
  | again {task : Rebroadcast} (call : deed.call = .rebroadcast task) (own : task.round = round)
    (sent : deed.postings round = task.peers.map (·, [task.vote]))

theorem sends_posts (settings : Settings) (round : Round) (vote : Vote) (electorate : Electorate)
    : sends (posts settings round vote electorate)
      = (recipients vote electorate).map (·, [vote]) := by
  have asked (peers : List Peer)
      : sends
          (if 0 < settings.rebroadcasts ∧ peers ≠ [] then [.schedule ⟨round, vote, peers⟩] else [])
        = [] := by
    split <;> rfl
  rw [← List.append_nil (List.map _ _), ← sends_map, ← asked (recipients vote electorate)]
  exact List.filterMap_append

theorem Deed.Done.posts {settings : Settings} {deed : Deed} (done : deed.Done settings)
    (round : Round)
    : deed.Posts settings round := by
  cases done with
  | @vote candidate electorate _ _ _ _ ends =>
      by_cases own : candidate.round = round
      case neg => exact .silent (if_neg own)
      cases ends with
      | refused _ => exact .silent (if_pos own)
      | @cast vote _ effects live _ _ signed _ tally =>
          refine @Deed.Posts.first _ _ _ candidate electorate vote rfl
            ⟨own ▸ rfl, candidate, electorate, rfl, signed⟩ ((if_pos own).trans ?_)
          rw [← sends_posts settings candidate.round, sends, List.filterMap_append,
            show effects.filterMap _ = [] from sends_of_inward tally.inward]
          rfl
  | @rebroadcast task _ _ _ _ ends =>
      by_cases own : task.round = round
      case neg => exact .silent (if_neg own)
      cases ends with
      | spent => exact .silent (if_pos own)
      | sent _ _ _ => exact .again rfl own ((if_pos own).trans (sends_map _ _))
  | switch _ | receive _ | stop _ => exact .silent rfl

section

variable {settings : Settings} {window : UInt64} {deeds : List Deed} {gate : Gate}

/-- What is sent of the own vote of a round is that vote, to a peer of the electorate that it was
cast under, but not to the voter.
-/
theorem Run.posted (run : Run settings window deeds gate) {round : Round} {deed : Deed}
    (member : deed ∈ deeds) {peer : Peer} {votes : List Vote}
    (sent : (peer, votes) ∈ deed.postings round)
    : ∃ voting ∈ deeds, ∃ candidate electorate vote,
        voting.call = .vote candidate electorate ∧ voting.Casts settings round vote
        ∧ votes = [vote] ∧ peer ∈ electorate.peers ∧ peer.key ≠ vote.key := by
  have received {vote : Vote} {electorate : Electorate}
      (member : peer ∈ recipients vote electorate)
      : peer ∈ electorate.peers ∧ peer.key ≠ vote.key :=
    (List.mem_filter.mp member).imp_right of_decide_eq_true
  cases (run.done deed member).posts round with
  | silent none => cases none ▸ sent
  | first call casts sent' =>
      obtain ⟨_, among, same⟩ := List.mem_map.mp (sent' ▸ sent)
      cases same
      exact ⟨deed, member, _, _, _, call, casts, rfl, received among⟩
  | @again task call own sent' =>
      obtain ⟨_, among, same⟩ := List.mem_map.mp (sent' ▸ sent)
      cases same
      obtain ⟨voting, asked, scheduled⟩ := call ▸ run.due deed member
      have assigns := (run.done voting asked).assigns scheduled
      obtain ⟨candidate, electorate, call', peers⟩ := assigns.peers
      exact ⟨voting, asked, candidate, electorate, task.vote, call', own ▸ assigns.casts, rfl,
        received (peers ▸ among)⟩

/-- A call sends the own vote of a round to a peer just once, if it votes in it or is a ring of it.
-/
theorem Run.count_postings_le (run : Run settings window deeds gate) (round : Round) (peer : Peer)
    {deed : Deed} (member : deed ∈ deeds)
    : ((deed.postings round).map Prod.fst).count peer
      ≤ ([deed].filterMap Deed.votedRound?).count round
        + [deed].countP fun deed => decide (deed.call.Rings round) := by
  have once {peers : List Peer} (nodup : peers.Nodup) (votes : List Vote)
      : ((peers.map (·, votes)).map Prod.fst).count peer ≤ 1 := by
    rw [List.map_map, show Prod.fst ∘ (·, votes) = (id : Peer → Peer) from rfl, List.map_id]
    exact List.nodup_iff_count_le_one.mp nodup peer
  cases (run.done deed member).posts round with
  | silent none => simp [none]
  | @first _ electorate vote call casts sent =>
      have nodup : (recipients vote electorate).Nodup := electorate.nodup_peers.filter _
      have voted : ([deed].filterMap Deed.votedRound?).count round = 1 := by
        simp [List.filterMap_cons_some casts.1]
      rw [sent, voted]
      exact Nat.le_add_right_of_le (once nodup _)
  | @again task call own sent =>
      obtain ⟨voting, asked, scheduled⟩ := call ▸ run.due deed member
      obtain ⟨_, electorate, -, peers⟩ := ((run.done voting asked).assigns scheduled).peers
      have nodup : task.peers.Nodup := peers ▸ electorate.nodup_peers.filter _
      have rings : deed.call.Rings round := call ▸ own
      rw [sent, List.countP_singleton, if_pos (decide_eq_true rings)]
      exact Nat.le_add_left_of_le (once nodup _)

end

end Gate

-----------------------------------------------------------------------------------------
-- Work that is left
-----------------------------------------------------------------------------------------

namespace Reminder

/-- How often reminders are yet to ring for a round. -/
def outstanding (round : Round) (reminders : List Reminder) : Nat :=
  ((reminders.filter fun reminder => decide (reminder.task.round = round)).map Reminder.left).sum

section

variable (round : Round)

@[simp] theorem outstanding_nil : outstanding round [] = 0 := rfl

@[simp] theorem outstanding_append (first second : List Reminder)
    : outstanding round (first ++ second) = outstanding round first + outstanding round second := by
  simp [outstanding]

@[simp] theorem outstanding_cons (reminder : Reminder) (rest : List Reminder)
    : outstanding round (reminder :: rest)
      = (if reminder.task.round = round then reminder.left else 0) + outstanding round rest := by
  unfold outstanding
  split <;> simp [*]

end

theorem mem_ofEffects {times : Nat} {effects : List Effect} {reminder : Reminder}
    : reminder ∈ ofEffects times effects
      ↔ .schedule reminder.task ∈ effects ∧ reminder.left = times := by
  unfold ofEffects
  rw [List.mem_filterMap]
  constructor
  · rintro ⟨effect, member, asked⟩
    split at asked <;> cases asked
    exact ⟨member, rfl⟩
  · rintro ⟨member, rfl⟩
    exact ⟨_, member, rfl⟩

@[simp] theorem ofEffects_append (times : Nat) (first second : List Effect)
    : ofEffects times (first ++ second) = ofEffects times first ++ ofEffects times second :=
  List.filterMap_append

theorem ofEffects_eq_nil {times : Nat} {effects : List Effect}
    (unasked : ∀ task, .schedule task ∉ effects)
    : ofEffects times effects = [] :=
  List.eq_nil_iff_forall_not_mem.mpr fun _ member => unasked _ (mem_ofEffects.mp member).1

/-- What is left of a reminder after a ring rings once less often. -/
theorem eq_of_ringOnce {reminder rest : Reminder} {gate : Gate}
    (again : (reminder.ringOnce gate).1 = some rest)
    : rest = ⟨reminder.task, reminder.left - 1⟩ ∧ 1 < reminder.left := by
  simp only [ringOnce, Option.ite_none_right_eq_some, Option.some.injEq] at again
  exact ⟨again.2.symm, again.1.2⟩

theorem outstanding_ringOnce {reminder : Reminder} (left : 0 < reminder.left) (round : Round)
    (gate : Gate)
    : outstanding round (reminder.ringOnce gate).1.toList
        + (if reminder.task.round = round then 1 else 0)
      ≤ outstanding round [reminder] := by
  cases again : (reminder.ringOnce gate).1 with
  | none =>
      simp only [Option.toList_none, outstanding_nil, outstanding_cons]
      split <;> omega
  | some rest =>
      obtain ⟨rfl, more⟩ := eq_of_ringOnce again
      simp only [Option.toList_some, outstanding_nil, outstanding_cons]
      split <;> omega

end Reminder

namespace Gate

open Reminder (outstanding)

theorem ofEffects_posts (times : Nat) (settings : Settings) (round : Round) (vote : Vote)
    (electorate : Electorate)
    : Reminder.ofEffects times (posts settings round vote electorate) = []
      ∨ ∃ task,
          Reminder.ofEffects times (posts settings round vote electorate) = [⟨task, times⟩] := by
  have sent (peers : List Peer) : Reminder.ofEffects times (peers.map (.send · [vote])) = [] :=
    Reminder.ofEffects_eq_nil (by simp)
  simp only [posts, Reminder.ofEffects_append, sent, List.nil_append]
  split
  · exact .inr ⟨_, rfl⟩
  · exact .inl rfl

theorem Deed.Done.ofEffects {settings : Settings} {deed : Deed} (done : deed.Done settings)
    (times : Nat)
    : Reminder.ofEffects times deed.effects = []
      ∨ ∃ task, Reminder.ofEffects times deed.effects = [⟨task, times⟩] := by
  by_cases asked : ∃ task, .schedule task ∈ deed.effects
  case neg => exact .inl (Reminder.ofEffects_eq_nil (not_exists.mp asked))
  obtain ⟨task, scheduled⟩ := asked
  obtain ⟨candidate, electorate, call, -⟩ := (done.assigns scheduled).peers
  cases done with
  | vote ends =>
      cases ends with
      | refused _ => cases scheduled
      | @cast vote _ effects _ _ _ _ _ tally =>
          have early : Reminder.ofEffects times effects = [] :=
            Reminder.ofEffects_eq_nil fun task member => tally.inward _ member
          simp only [Reminder.ofEffects_append, early, List.nil_append]
          exact ofEffects_posts ..
  | switch _ | receive _ | rebroadcast _ | stop _ => cases call

/-- A call asks for one reminder if it votes, and else for none. -/
theorem Deed.Done.outstanding_le {settings : Settings} {deed : Deed} (done : deed.Done settings)
    (times : Nat) (round : Round)
    : outstanding round (Reminder.ofEffects times deed.effects)
      ≤ times * ([deed].filterMap Deed.votedRound?).count round := by
  rcases done.ofEffects times with none | ⟨task, asked⟩
  · simp [none]
  · have scheduled : .schedule task ∈ deed.effects :=
      (Reminder.mem_ofEffects.mp (asked ▸ List.mem_singleton_self _)).1
    have voted := (casts_of_schedule done scheduled).1
    rw [asked, List.filterMap_cons_some voted, List.filterMap_nil, List.count_singleton]
    by_cases own : task.round = round <;> simp [own]

-----------------------------------------------------------------------------------------
-- Runs with reminders
-----------------------------------------------------------------------------------------

/-- A run of a gate in which a rebroadcast is done only when a reminder rings. The reminders that
are yet to ring are kept, and they ring in any order, between any two calls.
-/
inductive Attended (settings : Settings) (window : UInt64)
    : List Deed → Gate → List Reminder → Prop
  | start : Attended settings window [] (.initial window) []
  | call {deeds : List Deed} {gate : Gate} {reminders : List Reminder}
    (attended : Attended settings window deeds gate reminders) (call : Call)
    (own : ∀ task, call ≠ .rebroadcast task)
    : Attended settings window (deeds ++ [call.deed settings gate]) (call.deed settings gate).after
        (reminders ++ Reminder.ofEffects settings.rebroadcasts (call.deed settings gate).effects)
  | ring {deeds : List Deed} {gate : Gate} {before after : List Reminder} {reminder : Reminder}
    (attended : Attended settings window deeds gate (before ++ reminder :: after))
    : Attended settings window (deeds ++ [(Call.rebroadcast reminder.task).deed settings gate])
        (reminder.ringOnce gate).2.1 (before ++ (reminder.ringOnce gate).1.toList ++ after)

theorem after_ringOnce (settings : Settings) (reminder : Reminder) (gate : Gate)
    : (reminder.ringOnce gate).2.1
      = ((Call.rebroadcast reminder.task).deed settings gate).after := by
  simp [Reminder.ringOnce, Call.deed, Call.activity]

/-- The reminder was asked for, and is yet to ring. -/
structure Outstanding (deeds : List Deed) (reminder : Reminder) : Prop where
  due : (Call.rebroadcast reminder.task).Due deeds
  left : 0 < reminder.left

theorem Outstanding.append {deeds : List Deed} {reminder : Reminder}
    (outstanding : Outstanding deeds reminder) (later : List Deed)
    : Outstanding (deeds ++ later) reminder := by
  obtain ⟨⟨deed, member, scheduled⟩, left⟩ := outstanding
  exact ⟨⟨deed, List.mem_append_left _ member, scheduled⟩, left⟩

section

variable {settings : Settings} {window : UInt64} {deeds : List Deed} {gate : Gate}
  {reminders : List Reminder}

theorem Attended.outstanding (attended : Attended settings window deeds gate reminders)
    : ∀ reminder ∈ reminders, Outstanding deeds reminder := by
  induction attended with
  | start => simp
  | @call deeds gate reminders _ call _ ih =>
      refine List.forall_mem_append.mpr ⟨fun reminder member => (ih reminder member).append _, ?_⟩
      intro reminder asked
      obtain ⟨scheduled, left⟩ := Reminder.mem_ofEffects.mp asked
      refine ⟨⟨_, List.mem_append_right _ (List.mem_singleton_self _), scheduled⟩, ?_⟩
      exact left ▸ ((call.done settings gate).assigns scheduled).repeated
  | @ring deeds gate before after reminder _ ih =>
      obtain ⟨earlier, rest⟩ := List.forall_mem_append.mp ih
      obtain ⟨own, later⟩ := List.forall_mem_cons.mp rest
      have kept : ∀ rest ∈ (reminder.ringOnce gate).1, Outstanding deeds rest := by
        intro rest again
        obtain ⟨rfl, more⟩ := Reminder.eq_of_ringOnce again
        exact ⟨own.due, Nat.sub_pos_of_lt more⟩
      refine fun other member => Outstanding.append ?_ _
      rcases List.mem_append.mp member with member | member
      · rcases List.mem_append.mp member with member | member
        · exact earlier other member
        · exact kept other (Option.mem_toList.mp member)
      · exact later other member

/-- To leave out what is yet to ring gives a run. -/
theorem Attended.run (attended : Attended settings window deeds gate reminders)
    : Run settings window deeds gate := by
  induction attended with
  | start => exact .start
  | call _ call own ih =>
      refine ih.next call ?_
      cases call with
      | rebroadcast task => exact absurd rfl (own task)
      | vote _ _ | switch _ _ | receive _ | stop => trivial
  | @ring deeds gate before after reminder attended ih =>
      have outstanding := attended.outstanding reminder
        (List.mem_append_right _ (List.mem_cons_self ..))
      exact after_ringOnce settings reminder gate ▸ ih.next _ outstanding.due

/-- Reminders of a round have rung, and are yet to ring, so many times at most as its vote is to be
sent again; by induction on the calls and rings.
-/
theorem Attended.budget (attended : Attended settings window deeds gate reminders) (round : Round)
    : (deeds.countP fun deed => decide (deed.call.Rings round))
        + Reminder.outstanding round reminders
      ≤ settings.rebroadcasts * (deeds.filterMap Deed.votedRound?).count round := by
  induction attended with
  | start => simp
  | @call deeds gate reminders _ call own ih =>
      have asked := (call.done settings gate).outstanding_le settings.rebroadcasts round
      have other : ¬ (call.deed settings gate).call.Rings round := by
        intro rings
        obtain ⟨task, same, -⟩ := Call.Rings.exists_task rings
        exact own task same
      rw [List.countP_append, List.countP_singleton, if_neg (by simpa using other)]
      rw [Reminder.outstanding_append, List.filterMap_append, List.count_append, Nat.mul_add]
      omega
  | @ring deeds gate before after reminder attended ih =>
      have left := (attended.outstanding reminder
        (List.mem_append_right _ (List.mem_cons_self ..))).left
      have less := Reminder.outstanding_ringOnce left round gate
      have rings
          : (decide (((Call.rebroadcast reminder.task).deed settings gate).call.Rings round) = true)
            ↔ reminder.task.round = round :=
        decide_eq_true_iff
      rw [List.countP_append, List.countP_singleton, List.filterMap_append, List.count_append,
        Nat.mul_add]
      simp only [Reminder.outstanding_append, Reminder.outstanding_cons, Reminder.outstanding_nil,
        rings] at ih less ⊢
      omega

/-- The own vote of a round goes to a peer once for the vote, and once for each ring at most. -/
theorem Run.count_posted_le (run : Run settings window deeds gate) (round : Round) (peer : Peer)
    : ((deeds.flatMap (Deed.postings round)).map Prod.fst).count peer
      ≤ (deeds.filterMap Deed.votedRound?).count round
        + deeds.countP fun deed => decide (deed.call.Rings round) := by
  have each := fun (deed : Deed) (member : deed ∈ deeds) =>
    run.count_postings_le round peer member
  clear run
  induction deeds with
  | nil => simp
  | cons deed rest ih =>
      obtain ⟨own, others⟩ := List.forall_mem_cons.mp each
      have rest_le := ih others
      rw [← List.singleton_append, List.filterMap_append, List.countP_append, List.count_append]
      rw [List.flatMap_append, List.flatMap_singleton, List.map_append, List.count_append]
      omega

theorem Run.count_votedRounds_le (run : Run settings window deeds gate) (round : Round)
    : (deeds.filterMap Deed.votedRound?).count round ≤ 1 := by
  refine List.nodup_iff_count_le_one.mp (run.votedRounds.1.imp ?_) round
  rintro earlier later before rfl
  exact Round.lt_irrefl _ before

end

/-- Rebroadcasts are bounded and come to an end. For a round, the vote and its rings send one vote
that was cast in it: to peers of the electorate that it was cast under other than the voter, and to
each of them once for the vote and so many times at most as it is to be sent again. A ring sends
something just if the gate is not stopped, and the round is current and not closed. After one that
sent nothing no ring of the round sends anything, whatever is done and rings for other rounds.
-/
theorem rebroadcasts_bounded {settings : Settings} {window : UInt64} {deeds : List Deed}
    {gate : Gate} {reminders : List Reminder}
    (attended : Attended settings window deeds gate reminders)
    : (∀ round,
        (∀ peer,
          ((deeds.flatMap (Deed.postings round)).map Prod.fst).count peer
            ≤ 1 + settings.rebroadcasts)
        ∧ (deeds.countP fun deed => decide (deed.call.Rings round))
            + Reminder.outstanding round reminders
          ≤ settings.rebroadcasts
        ∧ ∀ deed ∈ deeds, ∀ posting ∈ deed.postings round,
            ∃ voting ∈ deeds, ∃ candidate electorate vote,
              voting.call = .vote candidate electorate ∧ voting.Casts settings round vote
              ∧ posting.2 = [vote] ∧ posting.1 ∈ electorate.peers ∧ posting.1.key ≠ vote.key)
      ∧ (∀ deed ∈ deeds, ∀ round, deed.call.Rings round →
          (deed.effects ≠ [] ↔ deed.before.Insists round))
      ∧ ∀ round, deeds.Pairwise fun earlier later =>
          earlier.call.Rings round → earlier.effects = [] → later.call.Rings round →
            later.effects = [] := by
  have run := attended.run
  refine ⟨fun round => ?_, run.insists, fun round => (run.silenced round).2⟩
  have once := run.count_votedRounds_le round
  have budget
      : (deeds.countP fun deed => decide (deed.call.Rings round))
          + Reminder.outstanding round reminders
        ≤ settings.rebroadcasts :=
    (attended.budget round).trans ((Nat.mul_le_mul_left _ once).trans_eq (Nat.mul_one _))
  refine ⟨fun peer => ?_, budget, fun deed member posting sent => run.posted member sent⟩
  have sent := run.count_posted_le round peer
  omega

/-- A gate votes, and is reminded of it; it votes in the retry, and is reminded of both votes. The
second reminder of the first vote is the last one, and sends nothing.
-/
theorem rebroadcasts_bounded_over_retry
    : ∃ deeds gate reminders,
        Attended { Settings.numbered 1 with rebroadcasts := 2 } 10 deeds gate reminders
        ∧ (deeds.map (sends ·.effects |>.length) = [3, 3, 3, 0, 3]
          ∧ reminders.map (·.task.round) = [⟨5, 1⟩] ∧ reminders.map Reminder.left = [1])
        ∧ deeds.Pairwise fun earlier later =>
            earlier.call.Rings ⟨5, 0⟩ → earlier.effects = [] → later.call.Rings ⟨5, 0⟩ →
              later.effects = [] := by
  have voted := (Attended.start : Attended { Settings.numbered 1 with rebroadcasts := 2 } 10 [] _ _)
    |>.call (.vote (.numbered 1) ⟨.four, none⟩) nofun
  have reminded := @Attended.ring _ _ _ _ [] []
    ⟨⟨⟨5, 0⟩, .numbered 1 (.numbered 1), Roster.four.peers.tail⟩, 2⟩ voted
  have again := reminded.call (.vote (.empty ⟨5, 1⟩) ⟨.four, none⟩) nofun
  have spent := @Attended.ring _ _ _ _ [] _
    ⟨⟨⟨5, 0⟩, .numbered 1 (.numbered 1), Roster.four.peers.tail⟩, 1⟩ again
  have last := @Attended.ring _ _ _ _ [] []
    ⟨⟨⟨5, 1⟩, .numbered 1 (.empty ⟨5, 1⟩), Roster.four.peers.tail⟩, 2⟩ spent
  exact ⟨_, _, _, last, by decide, (rebroadcasts_bounded last).2.2 ⟨5, 0⟩⟩

end Gate

end Quorum
