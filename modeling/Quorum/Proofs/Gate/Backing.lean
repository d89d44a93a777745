import Quorum.Proofs.Gate.Discipline
import Quorum.Proofs.PollBook.Backing

/-! A gate that consults one roster and is handed no forged votes holds backed polls only. So are
the outcomes that it surfaces or returns, and the blocks that it commits.
-/

namespace Quorum

variable {roster : Roster} {signed : PublicKey → Candidate → Prop} {α : Type}

/-- What an effect claims is backed: an outcome, the decision for a block, the own vote. -/
def Effect.Backed (roster : Roster) (signed : PublicKey → Candidate → Prop) : Effect → Prop
  | .surface outcome => outcome.Backed roster signed
  | .commit candidate round =>
      ∃ choices, Choices.Backed signed round choices
        ∧ roster.Decides choices round .commit (some candidate)
  | .schedule task => signed task.vote.key task.vote.candidate
  | .send _ _ | .count _ _ => True

namespace Gate

/-- The gate consults the roster alone, and all votes that it holds were signed. -/
structure Backed (roster : Roster) (signed : PublicKey → Candidate → Prop) (gate : Gate)
    : Prop where
  electorate : ∀ electorate ∈ gate.electorate, electorate = ⟨roster, none⟩
  ownVotes : ∀ entry ∈ gate.ownVotes, signed entry.2.key entry.2.candidate
  book : gate.book.Backed roster signed

def backing (roster : Roster) (signed : PublicKey → Candidate → Prop) : Discipline where
  keeps := Backed roster signed
  allows := Effect.Backed roster signed

theorem backed_initial (window : UInt64) : (initial window).Backed roster signed where
  electorate := by simp [initial]
  ownVotes := by simp [initial]
  book := PollBook.backed_new window

-----------------------------------------------------------------------------------------
-- Single changes
-----------------------------------------------------------------------------------------

/-- The phase, the latest round and the stop do not matter. -/
theorem Backed.congr {gate other : Gate} (backed : gate.Backed roster signed)
    (electorate : other.electorate = gate.electorate) (ownVotes : other.ownVotes = gate.ownVotes)
    (book : other.book = gate.book)
    : other.Backed roster signed where
  electorate := electorate ▸ backed.electorate
  ownVotes := ownVotes ▸ backed.ownVotes
  book := book ▸ backed.book

theorem Backed.enter {gate : Gate} (backed : gate.Backed roster signed) (phase : Phase)
    : (gate.enter phase).Backed roster signed := by
  unfold Gate.enter
  split
  · exact backed
  · exact backed.congr rfl rfl rfl

theorem Backed.adopt {gate : Gate} (backed : gate.Backed roster signed) (round : Round)
    : (gate.adopt round ⟨roster, none⟩).Backed roster signed := by
  unfold Gate.adopt
  split
  · exact ⟨by simp, backed.ownVotes, backed.book⟩
  · exact backed

theorem Backed.advance {gate : Gate} (backed : gate.Backed roster signed) (round : Round)
    : (gate.advance round).Backed roster signed :=
  ⟨backed.electorate, backed.ownVotes, backed.book.advance round⟩

theorem Backed.forget {gate : Gate} (backed : gate.Backed roster signed) (round : Round)
    : (gate.forget round).Backed roster signed :=
  ⟨backed.electorate, fun entry member => backed.ownVotes entry (List.mem_filter.mp member).1,
    backed.book⟩

theorem Backed.keepVote {gate : Gate} (backed : gate.Backed roster signed) (round : Round)
    {vote : Vote} (genuine : signed vote.key vote.candidate)
    : (gate.keepVote round vote).2.1.Backed roster signed := by
  unfold Gate.keepVote
  split
  · exact backed
  · refine ⟨backed.electorate, ?_, backed.book⟩
    intro entry member
    rcases List.mem_append.mp member with earlier | last
    · exact backed.ownVotes entry earlier
    · obtain rfl := List.mem_singleton.mp last
      exact genuine

theorem Backed.startDeciding {gate : Gate} (backed : gate.Backed roster signed) (round : Round)
    : (gate.startDeciding round).Backed roster signed := by
  unfold Gate.startDeciding
  split
  · exact backed.congr rfl rfl rfl
  · exact backed

/-- To record a backed outcome keeps the gate backed, and commits a block only if it is decided. -/
theorem Backed.record {gate : Gate} (backed : gate.Backed roster signed) {outcome : Outcome}
    (known : outcome.Backed roster signed)
    : (gate.record outcome).1.Backed roster signed
      ∧ ∀ effect ∈ (gate.record outcome).2, effect.Backed roster signed := by
  unfold Gate.record
  constructor
  · simp only
    split
    · exact backed.enter _
    · exact backed
  · intro effect member
    rcases List.mem_cons.mp member with rfl | commits
    · trivial
    · split at commits
      · next candidate kind winner =>
          obtain rfl := List.mem_singleton.mp commits
          cases known with
          | decided choices signed_choices decides =>
              exact ⟨choices, signed_choices, kind ▸ winner ▸ decides⟩
          | future other _ _ _ _ => rw [kind] at other; cases other
      · cases commits

-----------------------------------------------------------------------------------------
-- Activities
-----------------------------------------------------------------------------------------

open Activity

theorem obeys_send (peers : List Peer) (votes : List Vote)
    : Obeys (backing roster signed) (fun _ => True) (send peers votes) := by
  refine obeys_perform fun gate backed => ⟨backed, ?_, trivial⟩
  intro effect member
  simp only at member
  split at member
  · cases member
  · obtain ⟨peer, -, rfl⟩ := List.mem_map.mp member
    trivial

theorem backed_intakeCounts (intake : Intake) (effect : Effect)
    (member : effect ∈ intakeCounts intake)
    : effect.Backed roster signed := by
  unfold intakeCounts at member
  rcases List.mem_append.mp member with counted | counted <;> split at counted
  · exact List.mem_singleton.mp counted ▸ trivial
  · cases counted
  · exact List.mem_singleton.mp counted ▸ trivial
  · cases counted

theorem obeys_poll (round : Round) {votes : List Vote}
    (genuine : ∀ vote ∈ votes, signed vote.key vote.candidate)
    : Obeys (backing roster signed) (fun found => ∀ outcome ∈ found, outcome.Backed roster signed)
        (poll round votes ⟨roster, none⟩) := by
  refine obeys_perform fun gate backed => ?_
  obtain ⟨book, outcome⟩ := backed.book.insert round genuine
  exact ⟨⟨backed.electorate, backed.ownVotes, book⟩, backed_intakeCounts _, outcome⟩

theorem Backed.surface {gate : Gate} (backed : gate.Backed roster signed) {outcome : Outcome}
    (known : outcome.Backed roster signed)
    : (gate.surface outcome).2.1.Backed roster signed
      ∧ ∀ effect ∈ (gate.surface outcome).2.2, effect.Backed roster signed := by
  unfold Gate.surface
  split
  · exact ⟨backed, by simp⟩
  · obtain ⟨kept, recorded⟩ := backed.record known
    refine ⟨kept, ?_⟩
    intro effect member
    rcases List.mem_append.mp member with earlier | last
    · exact recorded effect earlier
    · exact List.mem_singleton.mp last ▸ known

theorem obeys_report {outcome : Outcome} (known : outcome.Backed roster signed)
    : Obeys (backing roster signed) (fun _ => True) (report outcome) := by
  unfold report
  refine (obeys_look _).bind fun current _ => ?_
  split
  · exact obeys_pure trivial
  · refine obeys_perform fun gate backed => ?_
    obtain ⟨kept, surfaced⟩ := backed.surface known
    exact ⟨kept, surfaced, trivial⟩

theorem obeys_move (round : Round) {continuation : Activity α} {post : α → Prop}
    (rest : Obeys (backing roster signed) post continuation)
    : Obeys (backing roster signed) post (do
        modify (advance round)
        modify (forget round)
        modify (adopt round ⟨roster, none⟩)
        continuation) := by
  refine Obeys.bind (obeys_modify fun _ backed => Backed.advance backed round) fun _ _ => ?_
  refine Obeys.bind (obeys_modify fun _ backed => Backed.forget backed round) fun _ _ => ?_
  refine Obeys.bind (obeys_modify fun _ backed => Backed.adopt backed round) fun _ _ => ?_
  exact rest

theorem obeys_enter (phase : Phase)
    : Obeys (backing roster signed) (fun _ => True) (modify (enter phase)) :=
  obeys_modify fun _ backed => Backed.enter backed phase

theorem obeys_cast (settings : Settings) (round : Round) {vote : Vote}
    (genuine : signed vote.key vote.candidate)
    : Obeys (backing roster signed) (fun _ => True)
        (cast settings round vote ⟨roster, none⟩) := by
  unfold Gate.cast
  have kept : Obeys (backing roster signed) (fun _ => True) (perform (keepVote round vote)) :=
    obeys_perform fun gate backed =>
      ⟨backed.keepVote round genuine, by unfold keepVote; split <;> simp, trivial⟩
  refine kept.bind fun new _ => ?_
  split
  · refine obeys_move round ((obeys_enter _).bind fun _ _ => ?_)
    have sent (peers : List Peer)
        : Obeys (backing roster signed) (fun _ => True) (do
            send peers [vote]
            if 0 < settings.rebroadcasts ∧ peers ≠ [] then
              emit [.schedule ⟨round, vote, peers⟩]
            return (.ok () : Except Fault Unit)) := by
      refine (obeys_send peers [vote]).bind fun _ _ => ?_
      have scheduled
          : Obeys (backing roster signed) (fun _ => True) (emit [.schedule ⟨round, vote, peers⟩]) :=
        obeys_emit fun _ member => List.mem_singleton.mp member ▸ genuine
      split
      · exact scheduled.bind fun _ _ => obeys_pure trivial
      · exact obeys_pure trivial
    refine (obeys_poll round (by simpa using genuine)).bind fun found known => ?_
    cases found with
    | none => exact sent _
    | some outcome => exact (obeys_report (known outcome rfl)).bind fun _ _ => sent _
  · exact obeys_pure trivial

/-- A vote under the roster obeys if a signature for the candidate counts as one. -/
theorem obeys_vote (settings : Settings) {candidate : Candidate}
    (genuine : ∀ vote, settings.credentials.sign candidate = .ok vote →
      signed vote.key vote.candidate)
    : Obeys (backing roster signed) (fun _ => True)
        (vote settings candidate ⟨roster, none⟩) := by
  unfold vote
  refine (obeys_look _).bind fun stopped _ => ?_
  split
  · exact obeys_pure trivial
  refine (obeys_look _).bind fun stale _ => ?_
  split
  · exact obeys_pure trivial
  refine (obeys_look _).bind fun closed _ => ?_
  split
  · exact obeys_pure trivial
  cases signature : settings.credentials.sign candidate with
  | error fault => exact obeys_pure trivial
  | ok vote => exact obeys_cast settings _ (genuine vote signature)

theorem obeys_evaluate (round : Round)
    : Obeys (backing roster signed)
        (fun ruling => ∀ known ∈ ruling, known.outcome.Backed roster signed)
        (perform fun gate =>
          let evaluation := gate.book.evaluate round ⟨roster, none⟩
          (evaluation.2, { gate with book := evaluation.1 }, [])) := by
  refine obeys_perform fun gate backed => ?_
  obtain ⟨book, known⟩ := backed.book.evaluate round
  exact ⟨⟨backed.electorate, backed.ownVotes, book⟩, by simp, known⟩

theorem obeys_recordSwitch {outcome : Outcome} (known : outcome.Backed roster signed)
    : Obeys (backing roster signed) (fun _ => True) (perform (recordSwitch outcome)) := by
  refine obeys_perform fun gate backed => ?_
  unfold recordSwitch
  split
  · exact ⟨backed, by simp, trivial⟩
  · obtain ⟨kept, allowed⟩ := backed.record known
    exact ⟨kept, allowed, trivial⟩

/-- A round is entered with a backed outcome, if it has one. -/
theorem obeys_enterRound (round : Round)
    : Obeys (backing roster signed)
        (fun result => ∀ outcome, result = .ok (some outcome) → outcome.Backed roster signed)
        (enterRound round ⟨roster, none⟩) := by
  unfold enterRound
  refine obeys_move round ?_
  refine (obeys_evaluate round).bind fun ruling known => ?_
  split
  · next outcome =>
      have backed_outcome : outcome.Backed roster signed := known _ rfl
      refine (obeys_recordSwitch backed_outcome).bind fun recorded _ => ?_
      split
      · refine obeys_pure ?_
        rintro _ ⟨⟩
        exact backed_outcome
      · exact obeys_pure (by simp)
  · next outcome =>
      refine (obeys_enter _).bind fun _ _ => obeys_pure ?_
      rintro _ ⟨⟩
      exact known _ rfl
  · exact (obeys_enter _).bind fun _ _ => obeys_pure (by simp)

/-- A switch obeys if the peers are those of the roster. -/
theorem obeys_switch (round : Round) {peers : List Peer}
    (same : ∀ other, Roster.ofPeers peers = .ok other → other = roster)
    : Obeys (backing roster signed)
        (fun result => ∀ outcome, result = .ok (some outcome) → outcome.Backed roster signed)
        (switch round peers) := by
  unfold Gate.switch
  refine (obeys_look _).bind fun stopped _ => ?_
  split
  · exact obeys_pure (by simp)
  · cases arranged : Roster.ofPeers peers with
    | error fault => exact obeys_pure (by simp)
    | ok other =>
        obtain rfl := same other arranged
        exact obeys_enterRound round

theorem obeys_answer (round : Round) (votes : List Vote)
    : Obeys (backing roster signed) (fun _ => True) (answer round votes) := by
  unfold answer
  refine (obeys_look _).bind fun decision _ => ?_
  cases decision with
  | none => exact obeys_pure trivial
  | some decision =>
      refine (obeys_look _).bind fun electorate _ => ?_
      cases electorate with
      | none => exact obeys_pure trivial
      | some electorate =>
          simp only
          split
          · exact obeys_pure trivial
          · exact obeys_send _ _

/-- Signed votes may be polled, and what they decide reported. -/
theorem obeys_poll_report (round : Round) {votes : List Vote}
    (genuine : ∀ vote ∈ votes, signed vote.key vote.candidate)
    {next : Option Outcome → Activity Unit} (undecided : next none = pure ())
    (decided : ∀ outcome, next (some outcome) = report outcome)
    : Obeys (backing roster signed) (fun _ => True) (poll round votes ⟨roster, none⟩ >>= next) := by
  refine (obeys_poll round genuine).bind fun found known => ?_
  cases found with
  | none =>
      rw [undecided]
      exact obeys_pure trivial
  | some outcome =>
      rw [decided]
      exact obeys_report (known outcome rfl)

/-- The votes of peers are collected, if none of them is forged. -/
theorem obeys_collect (round : Round) {votes : List Vote}
    (genuine : ∀ vote ∈ votes, roster.Has vote.key → signed vote.key vote.candidate)
    : Obeys (backing roster signed) (fun _ => True) (collect round votes) := by
  unfold collect
  have consulted
      : Obeys (backing roster signed)
          (fun seen => ∀ electorate ∈ seen.2, electorate = ⟨roster, none⟩)
          (observe fun gate => (gate.round, gate.electorate)) :=
    obeys_observe fun _ backed => backed.electorate
  refine consulted.bind ?_
  rintro ⟨current, known⟩ single
  cases known with
  | none => exact obeys_pure trivial
  | some electorate =>
      obtain rfl := single electorate rfl
      have admitted (vote : Vote)
          (member : vote ∈ votes.filter fun vote => decide (Electorate.Has ⟨roster, none⟩ vote.key))
          : signed vote.key vote.candidate := by
        obtain ⟨inside, has⟩ := List.mem_filter.mp member
        exact genuine vote inside (by simpa [Electorate.Has] using has)
      simp only
      generalize votes.filter (fun vote => decide (Electorate.Has ⟨roster, none⟩ vote.key)) = chosen
        at admitted ⊢
      split
      · split
        · exact (obeys_modify fun _ backed => Backed.startDeciding backed round).bind
            fun _ _ => obeys_poll_report round admitted rfl fun _ => rfl
        · exact obeys_poll_report round admitted rfl fun _ => rfl
      · exact obeys_pure trivial

theorem obeys_dropped
    : Obeys (backing roster signed) (fun _ => True) (emit [.count .bundlesDropped 1]) :=
  obeys_emit fun _ member => List.mem_singleton.mp member ▸ trivial

/-- A bundle may be received if no vote of a peer in it is forged. -/
theorem obeys_receive (settings : Settings) {votes : List Vote}
    (genuine : ∀ vote ∈ votes, settings.credentials.accepts vote = true → roster.Has vote.key →
      signed vote.key vote.candidate)
    : Obeys (backing roster signed) (fun _ => True) (receive settings votes) := by
  unfold receive
  refine (obeys_look _).bind fun stopped _ => ?_
  split
  · exact obeys_pure trivial
  cases Bundle.round votes with
  | error defect => exact obeys_dropped
  | ok round =>
      simp only
      split
      · exact obeys_dropped
      · next accepted =>
          have accepted := List.all_eq_true.mp (not_not.mp accepted)
          refine (obeys_look _).bind fun closed _ => ?_
          split
          · exact obeys_answer round votes
          · exact obeys_collect round fun vote member =>
              genuine vote member (accepted vote member)

theorem obeys_deliver (settings : Settings) {votes : List Vote}
    (genuine : ∀ vote ∈ votes, settings.credentials.accepts vote = true → roster.Has vote.key →
      signed vote.key vote.candidate)
    : Obeys (backing roster signed) (fun _ => True) (deliver settings votes) := by
  unfold deliver
  have counted : Obeys (backing roster signed) (fun _ => True) (emit (arrivalCounts votes)) := by
    refine obeys_emit fun effect member => ?_
    unfold arrivalCounts at member
    split at member <;> simp at member <;> rcases member with rfl | rfl <;> trivial
  refine counted.bind fun _ _ => ?_
  split
  · exact (obeys_receive settings genuine).bind fun _ _ => obeys_pure trivial
  · exact obeys_pure trivial

theorem obeys_rebroadcast (task : Rebroadcast)
    : Obeys (backing roster signed) (fun _ => True) (rebroadcast task) := by
  unfold rebroadcast
  refine (obeys_look _).bind fun stopped _ => ?_
  split
  · exact obeys_pure trivial
  refine (obeys_look _).bind fun closed _ => ?_
  split
  · exact obeys_pure trivial
  refine (obeys_look _).bind fun spent _ => ?_
  split
  · exact obeys_pure trivial
  · exact (obeys_send _ _).bind fun _ _ => obeys_pure trivial

theorem obeys_stop : Obeys (backing roster signed) (fun _ => True) stop := by
  refine obeys_modify fun gate backed => ?_
  split
  · exact backed
  · exact Backed.congr backed rfl rfl rfl

-----------------------------------------------------------------------------------------
-- Sessions
-----------------------------------------------------------------------------------------

/-- The request names the peers of the roster alone, and brings no forged vote of theirs. -/
def Request.Faithful (settings : Settings) (roster : Roster)
    (signed : PublicKey → Candidate → Prop)
    : Request → Prop
  | .vote candidate electorate =>
      electorate = ⟨roster, none⟩
      ∧ ∀ vote, settings.credentials.sign candidate = .ok vote → signed vote.key vote.candidate
  | .switch _ peers => ∀ other, Roster.ofPeers peers = .ok other → other = roster
  | .deliver votes =>
      ∀ vote ∈ votes, settings.credentials.accepts vote = true → roster.Has vote.key →
        signed vote.key vote.candidate
  | .rebroadcast _ | .stop => True

theorem Request.Faithful.obeys {settings : Settings} {request : Request}
    (faithful : request.Faithful settings roster signed)
    : Obeys (backing roster signed) (fun _ => True) (request.activity settings) := by
  cases request with
  | vote candidate electorate =>
      obtain ⟨rfl, genuine⟩ := faithful
      exact (obeys_vote settings genuine).discard
  | switch round peers => exact (obeys_switch round faithful).discard
  | deliver votes => exact (obeys_deliver settings faithful).discard
  | rebroadcast task => exact (obeys_rebroadcast task).discard
  | stop => exact obeys_stop

/-- Faithful requests, in whatever order their steps are done, lead to backed gates only. -/
theorem Session.Reachable.backed {settings : Settings} {window : UInt64} {session : Session}
    (reachable : Reachable settings window (Request.Faithful settings roster signed) session)
    : session.Disciplined (backing roster signed) :=
  reachable.disciplined (backed_initial window) fun _ faithful => faithful.obeys

end Gate

end Quorum
