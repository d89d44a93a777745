import Quorum.Proofs.Gate.Courses
import Quorum.Proofs.Gate.Decisions

/-! How the work on a gate is put together. All activities are made of plain steps, of moves to a
round, of tallies of votes and of entries into a round, so that what these keep is kept by whatever
is under way, in any order of the steps.
-/

namespace Quorum.Gate

open Activity

-----------------------------------------------------------------------------------------
-- Parts of activities
-----------------------------------------------------------------------------------------

theorem Silent.commits_eq_nil {effects : List Effect} (silent : Silent effects)
    : commits effects = [] := by
  simpa using silent.notes.commits

namespace Activity

variable {α β : Type}

theorem bind_return (activity : Activity α) : activity >>= pure = activity := by
  change activity.bind .done = activity
  induction activity with
  | done _ => rfl
  | step act _ ih => exact congrArg (step act) (funext ih)

theorem bind_bind {γ : Type} (activity : Activity α) (first : α → Activity β)
    (second : β → Activity γ)
    : activity >>= first >>= second = activity >>= fun value => first value >>= second := by
  change (activity.bind first).bind second = activity.bind fun value => (first value).bind second
  induction activity with
  | done _ => rfl
  | step act _ ih => exact congrArg (step act) (funext ih)

/-- The activity is made of the parts that work on a gate has. -/
inductive Composed : Activity α → Prop
  | done (value : α) : Composed (.done value)
  /-- The step touches neither the round nor the polls, and hands over no block. -/
  | plain {β : Type} {act : Gate → β × Gate × List Effect} {next : β → Activity α}
    (round : ∀ gate, (act gate).2.1.round = gate.round)
    (book : ∀ gate, (act gate).2.1.book = gate.book)
    (kept : ∀ gate, commits (act gate).2.2 = []) (rest : ∀ value, Composed (next value))
    : Composed (.step act next)
  | move (round : Round) (electorate : Electorate) {next : Unit → Activity α}
    (rest : Composed (next ()))
    : Composed (do
        modify (advance round)
        modify (forget round)
        modify (adopt round electorate) >>= next)
  | tally (round : Round) (votes : List Vote) (electorate : Electorate)
    {next : Option Outcome → Activity α} {rest : Outcome → Activity α}
    (nothing : Composed (next none))
    (telling : ∀ outcome, next (some outcome) = report outcome >>= fun _ => rest outcome)
    (told : ∀ outcome, Composed (rest outcome))
    : Composed (poll round votes electorate >>= next)
  | enter (round : Round) (electorate : Electorate)
    {next : Except Fault (Option Outcome) → Activity α} (rest : ∀ result, Composed (next result))
    : Composed (enterRound round electorate >>= next)

theorem Composed.bind {activity : Activity α} {continuation : α → Activity β}
    (composed : activity.Composed) (rest : ∀ value, (continuation value).Composed)
    : (activity >>= continuation).Composed := by
  induction composed with
  | done value => exact rest value
  | plain round book kept _ ih => exact .plain round book kept ih
  | move round electorate _ ih => exact .move round electorate ih
  | @tally round votes electorate next _ _ telling _ ih ih' =>
      refine .tally round votes electorate ih (fun outcome => ?_) ih'
      change next (some outcome) >>= continuation = _
      rw [telling, bind_bind]
  | enter round electorate _ ih =>
      rw [bind_bind]
      exact .enter round electorate ih

theorem composed_observe (view : Gate → α) : (observe view).Composed :=
  .plain (fun _ => rfl) (fun _ => rfl) (fun _ => rfl) .done

theorem composed_modify {change : Gate → Gate} (round : ∀ gate, (change gate).round = gate.round)
    (book : ∀ gate, (change gate).book = gate.book)
    : (modify change).Composed :=
  .plain round book (fun _ => rfl) .done

theorem composed_emit {effects : List Effect} (silent : Silent effects) : (emit effects).Composed :=
  .plain (fun _ => rfl) (fun _ => rfl) (fun _ => silent.commits_eq_nil) .done

end Activity

-----------------------------------------------------------------------------------------
-- The work that can be asked for
-----------------------------------------------------------------------------------------

theorem composed_enter (phase : Phase) : (modify (enter phase)).Composed :=
  composed_modify (fun gate => (rephased_enter phase gate).round)
    fun gate => (rephased_enter phase gate).book

theorem composed_send (peers : List Peer) (votes : List Vote) : (send peers votes).Composed := by
  refine .plain (fun _ => rfl) (fun _ => rfl) (fun gate => ?_) .done
  split
  · rfl
  · exact (silent_sends peers votes).commits_eq_nil

theorem composed_cast (settings : Settings) (round : Round) (vote : Vote) (electorate : Electorate)
    : (cast settings round vote electorate).Composed := by
  have sent (peers : List Peer)
      : Composed (do
          send peers [vote]
          if 0 < settings.rebroadcasts ∧ peers ≠ [] then
            emit [.schedule ⟨round, vote, peers⟩]
          return (.ok () : Except Fault Unit)) := by
    refine (composed_send peers [vote]).bind fun _ => ?_
    split
    · exact (composed_emit ⟨rfl, rfl, rfl⟩).bind fun _ => .done _
    · exact .done _
  unfold cast
  refine Composed.bind (.plain ?_ ?_ ?_ .done) fun new => ?_
  · intro gate
    unfold keepVote
    split <;> rfl
  · intro gate
    unfold keepVote
    split <;> rfl
  · intro gate
    unfold keepVote
    split <;> rfl
  split
  · refine .move round electorate ((composed_enter _).bind fun _ => ?_)
    exact .tally round [vote] electorate (sent _) (fun _ => rfl) fun _ => sent _
  · exact .done _

theorem composed_vote (settings : Settings) (candidate : Candidate) (electorate : Electorate)
    : (vote settings candidate electorate).Composed := by
  unfold vote
  refine (composed_observe _).bind fun stopped => ?_
  split
  · exact .done _
  refine (composed_observe _).bind fun stale => ?_
  split
  · exact .done _
  refine (composed_observe _).bind fun closed => ?_
  split
  · exact .done _
  cases settings.credentials.sign candidate with
  | error fault => exact .done _
  | ok vote => exact composed_cast settings _ vote electorate

theorem composed_switch (round : Round) (peers : List Peer) : (switch round peers).Composed := by
  unfold switch
  refine (composed_observe _).bind fun stopped => ?_
  split
  · exact .done _
  cases Roster.ofPeers peers with
  | error fault => exact .done _
  | ok roster =>
      have entered : (enterRound round ⟨roster, none⟩ >>= pure).Composed := .enter round _ .done
      rwa [bind_return] at entered

theorem composed_answer (round : Round) (votes : List Vote) : (answer round votes).Composed := by
  unfold answer
  refine (composed_observe _).bind fun decision => ?_
  cases decision with
  | none => exact .done _
  | some decision =>
      refine (composed_observe _).bind fun electorate => ?_
      cases electorate with
      | none => exact .done _
      | some electorate =>
          simp only
          split
          · exact .done _
          · exact composed_send _ _

theorem composed_collect (round : Round) (votes : List Vote) : (collect round votes).Composed := by
  have tallied {next : Option Outcome → Activity Unit} (nothing : (next none).Composed)
      (telling : ∀ outcome, next (some outcome) = report outcome) (admitted : List Vote)
      (electorate : Electorate)
      : (poll round admitted electorate >>= next).Composed :=
    .tally round admitted electorate nothing
      (fun outcome => (telling outcome).trans (bind_return (report outcome)).symm) fun _ => .done ()
  unfold collect
  refine (composed_observe _).bind ?_
  rintro ⟨current, known⟩
  cases known with
  | none => exact .done _
  | some electorate =>
      simp only
      split
      · split
        · refine (composed_modify (fun gate => ?_) fun gate => ?_).bind fun _ =>
            tallied (.done _) (fun _ => rfl) _ _
          · exact (rephased_startDeciding round gate).round
          · exact (rephased_startDeciding round gate).book
        · exact tallied (.done _) (fun _ => rfl) _ _
      · exact .done _

theorem composed_receive (settings : Settings) (votes : List Vote)
    : (receive settings votes).Composed := by
  have dropped : (emit [.count .bundlesDropped 1]).Composed := composed_emit ⟨rfl, rfl, rfl⟩
  unfold receive
  refine (composed_observe _).bind fun stopped => ?_
  split
  · exact .done _
  cases Bundle.round votes with
  | error defect => exact dropped
  | ok round =>
      simp only
      split
      · exact dropped
      · refine (composed_observe _).bind fun closed => ?_
        split
        · exact composed_answer round votes
        · exact composed_collect round votes

theorem composed_deliver (settings : Settings) (votes : List Vote)
    : (deliver settings votes).Composed := by
  unfold deliver
  refine Composed.bind (composed_emit ?_) fun _ => ?_
  · unfold arrivalCounts
    split <;> exact ⟨rfl, rfl, rfl⟩
  split
  · exact (composed_receive settings votes).bind fun _ => .done _
  · exact .done _

theorem composed_rebroadcast (task : Rebroadcast) : (rebroadcast task).Composed := by
  unfold rebroadcast
  refine (composed_observe _).bind fun stopped => ?_
  split
  · exact .done _
  refine (composed_observe _).bind fun closed => ?_
  split
  · exact .done _
  refine (composed_observe _).bind fun spent => ?_
  split
  · exact .done _
  · exact (composed_send _ _).bind fun _ => .done _

theorem composed_stop : stop.Composed :=
  composed_modify round_halted book_halted

theorem Request.composed (settings : Settings) (request : Request)
    : (request.activity settings).Composed := by
  cases request with
  | vote candidate electorate =>
      exact (composed_vote settings candidate electorate).bind fun _ => .done _
  | switch round peers => exact (composed_switch round peers).bind fun _ => .done _
  | deliver votes => exact (composed_deliver settings votes).bind fun _ => .done _
  | rebroadcast task => exact (composed_rebroadcast task).bind fun _ => .done _
  | stop => exact composed_stop

theorem Call.composed (settings : Settings) (call : Call) : (call.activity settings).Composed := by
  cases call with
  | vote candidate electorate =>
      exact (composed_vote settings candidate electorate).bind fun _ => .done _
  | switch round peers => exact (composed_switch round peers).bind fun _ => .done _
  | receive votes => exact (composed_receive settings votes).bind fun _ => .done _
  | rebroadcast task => exact (composed_rebroadcast task).bind fun _ => .done _
  | stop => exact composed_stop.bind fun _ => .done _

end Quorum.Gate
