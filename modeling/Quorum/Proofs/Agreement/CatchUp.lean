import Quorum.Proofs.Agreement.Round
import Quorum.Proofs.Gate.Decisions
import Quorum.Proofs.Gate.Stopping

/-! A gate that lags behind catches up on a decision. The votes that a decision rests on decide the
round by themselves, and go on doing so when other votes join them, as long as no peer votes for two
candidates.
-/

namespace Quorum

-----------------------------------------------------------------------------------------
-- The votes that an outcome rests on
-----------------------------------------------------------------------------------------

namespace Poll

section

variable {poll : Poll} {roster : Roster} {outcome : Outcome}

/-- An outcome rests on the counted votes of peers: on those for the candidate that is carried, or
on all of them if none is.
-/
theorem Coherent.mem_votes_of_outcome? (coherent : poll.Coherent)
    (reached : poll.outcome? ⟨roster, none⟩ = some outcome) {vote : Vote}
    : vote ∈ outcome.votes
      ↔ vote ∈ poll.voters ∧ roster.Has vote.key
        ∧ ∀ candidate, outcome.carried? = some candidate → vote.candidate = candidate := by
  cases outcome?_eq_some_iff.mp reached with
  | @decided side _ kind candidate votes seat verdict _ =>
      obtain rfl := Electorate.eq_of_seat seat
      obtain ⟨carries, accepted⟩ := coherent.carries_of_verdict verdict
      have carried
          : Outcome.carried?
              ⟨kind, poll.round, if kind = .commit then some candidate else none, votes, side⟩
            = some candidate :=
        Outcome.carried?_of_accepted accepted (coherent.round_of_carries carries)
      rw [coherent.mem_votes_of_decided verdict, carried]
      simp
  | rejected verdict _ =>
      rw [(coherent.votes_of_rejected verdict).mem_iff]
      simp [Outcome.carried?]

/-- The votes that an outcome rests on show what their keys have chosen. -/
theorem Coherent.firstChoice?_votes (coherent : poll.Coherent)
    (reached : poll.outcome? ⟨roster, none⟩ = some outcome) {key : PublicKey}
    (has : roster.Has key) {candidate : Candidate}
    (counts : ∀ carried, outcome.carried? = some carried → candidate = carried)
    : firstChoice? poll.round outcome.votes key = some candidate
      ↔ poll.choices key = some candidate := by
  have rests {vote : Vote} : vote ∈ outcome.votes ↔ _ := coherent.mem_votes_of_outcome? reached
  rw [coherent.firstChoice?_of_counted fun vote member => (rests.mp member).1,
    coherent.choices_eq_some]
  constructor
  · rintro ⟨vote, member, own, same⟩
    exact ⟨vote, (rests.mp member).1, own, same⟩
  · rintro ⟨vote, member, rfl, rfl⟩
    exact ⟨vote, rests.mpr ⟨member, has, counts⟩, rfl, rfl⟩

/-- The votes that an outcome rests on decide the same by themselves. -/
theorem Coherent.decides_of_votes (coherent : poll.Coherent)
    (reached : poll.outcome? ⟨roster, none⟩ = some outcome)
    : roster.Decides (firstChoice? poll.round outcome.votes) poll.round outcome.kind
        outcome.winner := by
  have decides := coherent.decides_of_outcome? reached
  have shown {key : PublicKey} (has : roster.Has key) {candidate : Candidate}
      (counts : ∀ carried, outcome.carried? = some carried → candidate = carried) :=
    coherent.firstChoice?_votes reached has counts
  have carried {candidate : Candidate}
      (counts : ∀ carried, outcome.carried? = some carried → candidate = carried)
      (carries : roster.Carries poll.choices candidate)
      : roster.Carries (firstChoice? poll.round outcome.votes) candidate := by
    refine Nat.le_trans carries (Finset.card_le_card fun key supports => ?_)
    obtain ⟨has, choice⟩ := Roster.mem_supporters.mp supports
    exact Roster.mem_supporters.mpr ⟨has, (shown has counts).mpr choice⟩
  have own := round_of_outcome? reached
  obtain ⟨kind, round, winner, votes, side⟩ := outcome
  obtain rfl : round = poll.round := own
  cases decides with
  | commit block carries => exact .commit block (carried (by rintro _ ⟨⟩; rfl) carries)
  | nothing carries => exact .nothing (carried (by rintro _ ⟨⟩; rfl) carries)
  | reject deadlock =>
      refine Roster.Decides.congr (fun key has => ?_) (.reject deadlock)
      exact Option.ext fun candidate => (shown has (by rintro _ ⟨⟩)).symm

/-- Votes decide a poll as they decide by themselves, if they do not contradict those it holds. -/
theorem decides_insert {votes : List Vote} {kind : OutcomeKind} {winner : Option Candidate}
    (decides : roster.Decides (firstChoice? poll.round votes) poll.round kind winner)
    (consistent
      : ∀ key candidate held, firstChoice? poll.round votes key = some candidate →
          poll.choices key = some held → held = candidate)
    : roster.Decides (poll.insert votes).1.choices poll.round kind winner := by
  refine decides.mono fun key candidate voted => ?_
  rw [choices_insert]
  cases held : poll.choices key with
  | none => exact voted
  | some other => exact congrArg some (consistent key candidate other voted held)

end

end Poll

-----------------------------------------------------------------------------------------
-- The votes of a decision elsewhere
-----------------------------------------------------------------------------------------

/-- Votes that suffice decide the current round. -/
theorem PollBook.decision_of_insert {book : PollBook} {votes : List Vote} {roster : Roster}
    {kind : OutcomeKind} {winner : Option Candidate}
    (coherent : (book.poll book.current).Coherent)
    (undecided : book.decision book.current = none)
    (decides
      : roster.Decides ((book.poll book.current).insert votes).1.choices book.current kind winner)
    : ∃ outcome,
        (book.insert book.current votes (some ⟨roster, none⟩)).1.decision book.current = some outcome
        ∧ outcome.decision = (kind, winner) := by
  have told
      : (((book.poll book.current).insert votes).1.outcome? ⟨roster, none⟩).map Outcome.decision
        = some (kind, winner) := by
    rw [(coherent.insert votes).outcome?_decision_iff, Poll.round_insert, round_poll]
    exact decides
  generalize result : book.insert book.current votes (some ⟨roster, none⟩) = receipt
  have ends := result ▸ book.insertion book.current votes (some ⟨roster, none⟩)
  cases ends with
  | refused closed =>
      have frozen := closed book.admits_current
      exact absurd undecided (Option.isSome_iff_ne_none.mp frozen)
  | announced _ _ _ ahead _ _ | retained _ _ _ ahead _ => exact absurd ahead (Round.lt_irrefl _)
  | undecided _ _ taken _ open_still =>
      rw [taken] at told
      rw [Option.bind_some] at open_still
      rw [open_still] at told
      cases told
  | @decided poll intake outcome _ active taken _ reached =>
      rw [taken] at told
      rw [Option.bind_some] at reached
      rw [reached] at told
      have still_open := (decision_of_taken taken).trans active
      exact ⟨outcome, decision_put_freeze (round_of_taken taken) still_open outcome,
        Option.some.inj told⟩

namespace Gate

theorem moving_heard {gate : Gate} (moving : gate.phase ≠ .stopped) (round : Round)
    : (gate.heard round).phase ≠ .stopped := by
  unfold heard startDeciding
  split
  · split
    · exact nofun
    · exact moving
  · exact moving

/-- A gate freezes its current round on a bundle of votes by peers that suffices. -/
theorem freezes_of_receive {settings : Settings} {votes : List Vote} {gate : Gate} {roster : Roster}
    {kind : OutcomeKind} {winner : Option Candidate} (live : gate.stopped = false)
    (moving : gate.phase ≠ .stopped) (consulted : gate.electorate = some ⟨roster, none⟩)
    (coherent : (gate.book.poll gate.book.current).Coherent)
    (undecided : gate.book.decision gate.book.current = none) (some_vote : votes ≠ [])
    (genuine : ∀ vote ∈ votes, settings.credentials.accepts vote = true)
    (ofRound : ∀ vote ∈ votes, vote.round = gate.book.current)
    (ofPeers : ∀ vote ∈ votes, roster.Has vote.key)
    (decides
      : roster.Decides ((gate.book.poll gate.book.current).insert votes).1.choices
          gate.book.current kind winner)
    : let later := ((receive settings votes).run gate).2.1
      later.phase = .frozen gate.book.current
      ∧ ∃ outcome, later.book.decision gate.book.current = some outcome
          ∧ outcome.decision = (kind, winner) := by
  have sound := Bundle.round_eq_ok.mpr ⟨some_vote, ofRound⟩
  have known : admitted ⟨roster, none⟩ votes = votes :=
    List.filter_eq_self.mpr fun vote member => decide_eq_true (.inl (ofPeers vote member))
  have active : ¬ gate.book.Closed gate.book.current := by
    rintro (expired | frozen)
    · exact gate.book.admits_current.1 expired
    · exact absurd undecided (Option.isSome_iff_ne_none.mp frozen)
  obtain ⟨last, effects, tally, run⟩ := run_collect live consulted
  rw [known] at tally
  rw [known, if_neg some_vote] at run
  rw [run_receive live sound genuine, if_neg active, run]
  have same := rephased_heard gate.book.current gate
  have polled
      : last.book
        = (gate.book.insert gate.book.current votes (some ⟨roster, none⟩)).1 := by
    rw [tally.rephased.book, Gate.polled, same.book]
  obtain ⟨outcome, stored, decision⟩ := PollBook.decision_of_insert coherent undecided decides
  rw [← polled] at stored
  have phase := tally.phase_of_decided (moving_heard moving _) (by rw [same.book]; exact undecided)
    (by rw [same.book]; exact stored)
  rw [same.book] at phase
  exact ⟨phase, outcome, stored, decision⟩

end Gate

section

variable {roster : Roster} {round : Round} {signed : PublicKey → Candidate → Prop}
  {settings settings' : Gate.Settings} {window window' : UInt64} {left right : Gate.Session}

/-- The votes of a decision decide any other poll of the round alike, since no peer signs two
candidates and the votes that are held there do not contradict them.
-/
theorem Roster.Tolerates.decides_insert (tolerates : roster.Tolerates round signed ∅)
    {poll held : Poll} (backed : poll.Backed roster signed) (held_backed : held.Backed roster signed)
    (own : poll.round = round) (held_own : held.round = round) {decision : Outcome}
    (stored : poll.decision = some decision)
    : roster.Decides (held.insert decision.votes).1.choices round decision.kind decision.winner := by
  have reached := backed.decided decision stored
  have decides := backed.coherent.decides_of_votes reached
  rw [own, ← held_own] at decides
  rw [← held_own]
  refine Poll.decides_insert decides fun key candidate other voted choice => ?_
  obtain ⟨vote, member, ofRound, rfl, rfl⟩ := Poll.exists_of_firstChoice? voted
  obtain ⟨counted, has, -⟩ := (backed.coherent.mem_votes_of_outcome? reached).mp member
  have ofRound' := held_backed.choices.ofRound vote.key other choice
  exact tolerates.single vote.key has (Finset.notMem_empty _) other vote.candidate
    (held_backed.choices.signed vote.key other choice) (backed.signed vote counted)
    (ofRound'.trans held_own) (ofRound.trans held_own)

/-- A gate that takes in the votes of a decision decides the same, whatever votes of its current
round it holds already.
-/
theorem decision_catches_up (tolerates : roster.Tolerates round signed ∅)
    (left_reachable
      : Gate.Session.Reachable settings window
          (Gate.Request.Faithful settings roster signed) left)
    (right_reachable
      : Gate.Session.Reachable settings' window'
          (Gate.Request.Faithful settings' roster signed) right)
    {decision : Outcome} (stored : left.gate.book.decision round = some decision)
    (live : right.gate.stopped = false) (current : right.gate.book.current = round)
    (undecided : right.gate.book.decision round = none) (entered : right.gate.electorate ≠ none)
    (genuine : ∀ vote ∈ decision.votes, settings'.credentials.accepts vote = true)
    : let later := ((Gate.receive settings' decision.votes).run right.gate).2.1
      later.phase = .frozen round
      ∧ ∃ outcome, later.book.decision round = some outcome
          ∧ outcome.kind = decision.kind ∧ outcome.winner = decision.winner := by
  subst current
  have backed := right_reachable.backed.gate
  have poll := left_reachable.backed.gate.book.poll right.gate.book.current
  have held := backed.book.poll right.gate.book.current
  have rests {vote : Vote} : vote ∈ decision.votes ↔ _ :=
    poll.coherent.mem_votes_of_outcome? (poll.decided decision stored)
  have decides := tolerates.decides_insert poll held (PollBook.round_poll _ _)
    (PollBook.round_poll _ _) stored
  have some_vote : decision.votes ≠ [] := by
    intro nobody
    have reached := poll.coherent.decides_of_votes (poll.decided decision stored)
    obtain ⟨key, candidate, -, choice⟩ := reached.exists_choice
    rw [nobody] at choice
    cases choice
  have ofRound (vote : Vote) (member : vote ∈ decision.votes)
      : vote.round = right.gate.book.current :=
    (poll.coherent.ofRound vote (rests.mp member).1).trans (PollBook.round_poll _ _)
  obtain ⟨electorate, consulted⟩ := Option.ne_none_iff_exists'.mp entered
  obtain rfl := backed.electorate electorate consulted
  have moving : right.gate.phase ≠ .stopped := by
    intro phase
    have halted := right_reachable.yields.1.mp phase
    cases live.symm.trans halted
  obtain ⟨phase, outcome, known, same⟩ := Gate.freezes_of_receive live moving consulted
    held.coherent undecided some_vote genuine ofRound (fun _ member => (rests.mp member).2.1) decides
  obtain ⟨kind, winner⟩ := Prod.mk.inj same
  exact ⟨phase, outcome, known, kind, winner⟩

end

/-- Two of four peers vote for one block, and two for another. -/
def ballotsForTie : List Vote :=
  [.numbered 1 (.numbered 1), .numbered 2 (.numbered 1), .numbered 3 (.numbered 2),
    .numbered 4 (.numbered 2)]

/-- A gate that holds its own vote and one for the other block rejects the round as well. -/
theorem decision_catches_up_on_tie
    : ∃ (left right : Gate.Session) (decision outcome : Outcome),
        left.gate.book.decision ⟨5, 0⟩ = some decision ∧ decision.kind = .reject
        ∧ right.gate.book.decision ⟨5, 0⟩ = none
        ∧ ((Gate.receive (.numbered 2) decision.votes).run right.gate).2.1.book.decision ⟨5, 0⟩
          = some outcome
        ∧ outcome.kind = .reject := by
  have tolerates : Roster.four.Tolerates ⟨5, 0⟩ (Signed ballotsForTie) ∅ :=
    Roster.tolerates_of_ballots _ (by decide) (by decide)
  obtain ⟨left, reachable, gate⟩ :=
    Gate.exists_reachable_script ballotsForTie .four 1 (.numbered 1)
      [[.numbered 3 (.numbered 2)], [.numbered 4 (.numbered 2), .numbered 2 (.numbered 1)]]
      (by decide) (by decide)
  obtain ⟨right, reachable', gate'⟩ :=
    Gate.exists_reachable_script ballotsForTie .four 2 (.numbered 1)
      [[.numbered 3 (.numbered 2)]] (by decide) (by decide)
  have stored
      : left.gate.book.decision ⟨5, 0⟩
        = some ⟨.reject, ⟨5, 0⟩, none, ballotsForTie, .primary⟩ := by
    rw [gate]
    decide
  have undecided : right.gate.book.decision ⟨5, 0⟩ = none := by
    rw [gate']
    decide
  obtain ⟨-, outcome, known, kind, -⟩ :=
    decision_catches_up tolerates reachable reachable' stored (by rw [gate']; decide)
      (by rw [gate']; decide) undecided (by rw [gate']; exact nofun) fun _ _ => rfl
  exact ⟨left, right, _, outcome, stored, rfl, undecided, known, kind⟩

/-- A block for the first round of all. -/
def firstBlock : Candidate := ⟨.zero, [1], [1]⟩

/-- Three of four peers vote for a block of the first round of all. -/
def ballotsForFirst : List Vote :=
  [.numbered 1 firstBlock, .numbered 2 firstBlock, .numbered 3 firstBlock]

/-- A gate that has entered no round yet does not catch up, since it does not know who may decide.
It is in the first round of all from the start.
-/
theorem not_decision_catches_up
    : ¬ ∀ (roster : Roster) (round : Round) (signed : PublicKey → Candidate → Prop)
          (settings settings' : Gate.Settings) (window window' : UInt64)
          (left right : Gate.Session) (decision : Outcome),
        roster.Tolerates round signed ∅ →
        Gate.Session.Reachable settings window
          (Gate.Request.Faithful settings roster signed) left →
        Gate.Session.Reachable settings' window'
          (Gate.Request.Faithful settings' roster signed) right →
        left.gate.book.decision round = some decision → right.gate.stopped = false →
        right.gate.book.current = round → right.gate.book.decision round = none →
        (∀ vote ∈ decision.votes, settings'.credentials.accepts vote = true) →
        ∃ outcome,
          ((Gate.receive settings' decision.votes).run right.gate).2.1.book.decision round
            = some outcome
          ∧ outcome.kind = decision.kind ∧ outcome.winner = decision.winner := by
  intro catches_up
  have tolerates : Roster.four.Tolerates .zero (Signed ballotsForFirst) ∅ :=
    Roster.tolerates_of_ballots _ (by decide) (by decide)
  obtain ⟨left, reachable, gate⟩ :=
    Gate.exists_reachable_script ballotsForFirst .four 1 firstBlock
      [[.numbered 2 firstBlock, .numbered 3 firstBlock]] (by decide) (by decide)
  have stored
      : left.gate.book.decision .zero
        = some ⟨.commit, .zero, some firstBlock, ballotsForFirst, .primary⟩ := by
    rw [gate]
    decide
  obtain ⟨outcome, known, -⟩ := catches_up .four .zero _ _ (.numbered 2) _ 10 left _ _ tolerates
    reachable .start stored rfl rfl rfl fun _ _ => rfl
  cases known

end Quorum
