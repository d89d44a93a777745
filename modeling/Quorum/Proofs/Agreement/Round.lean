import Quorum.Proofs.Gate.Backing

/-! Agreement on one round. Gates that consult one roster agree on a block, and on whether there is
one, in spite of as many faulty peers as the roster tolerates. A rejection by one gate excludes a
decision by another one only if too few faulty peers voted differently at the two.
-/

namespace Quorum

-----------------------------------------------------------------------------------------
-- Faulty peers
-----------------------------------------------------------------------------------------

/-- No more keys are faulty than the roster tolerates. Each of the other peers signs at most one
candidate of the round.
-/
structure Roster.Tolerates (roster : Roster) (round : Round)
    (signed : PublicKey → Candidate → Prop) (faulty : Finset PublicKey)
    : Prop where
  few : faulty.card ≤ (roster.size - 1) / 3
  single
    : ∀ key, roster.Has key → key ∉ faulty →
        ∀ candidate other, signed key candidate → signed key other →
          candidate.round = round → other.round = round → candidate = other

section

variable {roster : Roster} {round : Round} {signed : PublicKey → Candidate → Prop}
  {faulty : Finset PublicKey} {left right : Choices}

/-- A peer that is not faulty has the same choice in all views. -/
theorem Roster.Tolerates.choice_eq (tolerates : roster.Tolerates round signed faulty)
    (left_backed : left.Backed signed round) (right_backed : right.Backed signed round)
    {key : PublicKey} (has : roster.Has key) (honest : key ∉ faulty)
    {candidate other : Candidate} (choice : left key = some candidate)
    (choice' : right key = some other)
    : candidate = other :=
  tolerates.single key has honest candidate other (left_backed.signed key candidate choice)
    (right_backed.signed key other choice') (left_backed.ofRound key candidate choice)
    (right_backed.ofRound key other choice')

/-- Only one candidate is carried in all views, since two supermajorities have a peer in common
that is not faulty.
-/
theorem Roster.Tolerates.carried_eq (tolerates : roster.Tolerates round signed faulty)
    (left_backed : left.Backed signed round) (right_backed : right.Backed signed round)
    {candidate other : Candidate} (carries : roster.Carries left candidate)
    (carries' : roster.Carries right other)
    : candidate = other := by
  obtain ⟨key, supports, supports', honest⟩ :=
    Roster.exists_common_key (roster.supporters_subset_keys left candidate)
      (roster.supporters_subset_keys right other) carries carries' tolerates.few
  obtain ⟨has, choice⟩ := Roster.mem_supporters.mp supports
  obtain ⟨-, choice'⟩ := Roster.mem_supporters.mp supports'
  exact tolerates.choice_eq left_backed right_backed has honest choice choice'

theorem Roster.Tolerates.turncoats_subset (tolerates : roster.Tolerates round signed faulty)
    (left_backed : left.Backed signed round) (right_backed : right.Backed signed round)
    (candidate : Candidate)
    : roster.turncoats left right candidate ⊆ faulty := by
  intro key turned
  obtain ⟨has, choice, earlier, other, differ⟩ := Roster.mem_turncoats.mp turned
  by_contra honest
  exact differ (tolerates.choice_eq left_backed right_backed has honest other choice)

end

-----------------------------------------------------------------------------------------
-- Scripts
-----------------------------------------------------------------------------------------

/-- The votes of a list are all that was signed. -/
def Signed (ballots : List Vote) (key : PublicKey) (candidate : Candidate) : Prop :=
  ∃ vote ∈ ballots, vote.key = key ∧ vote.candidate = candidate

instance (ballots : List Vote) (key : PublicKey) (candidate : Candidate)
    : Decidable (Signed ballots key candidate) :=
  inferInstanceAs (Decidable (∃ vote ∈ ballots, _ ∧ _))

/-- Only the keys of faulty peers may occur with two candidates. -/
theorem Roster.tolerates_of_ballots {roster : Roster} (round : Round) {ballots : List Vote}
    {faulty : Finset PublicKey} (few : faulty.card ≤ (roster.size - 1) / 3)
    (single
      : ∀ vote ∈ ballots, ∀ other ∈ ballots, other.key = vote.key → vote.key ∉ faulty →
          vote.candidate = other.candidate)
    : roster.Tolerates round (Signed ballots) faulty := by
  refine ⟨few, ?_⟩
  rintro _ - honest _ _ ⟨vote, member, rfl, rfl⟩ ⟨other, member', same, rfl⟩ - -
  exact single vote member other member' same honest

/-- The settings of the node with a number. It takes every vote to be genuine. -/
def Gate.Settings.numbered (number : UInt8) : Gate.Settings where
  credentials := ⟨fun candidate => .ok (.numbered number candidate), fun _ => true⟩
  rebroadcasts := 0

/-- A node votes for a candidate, and is handed some bundles. -/
def Gate.script (roster : Roster) (candidate : Candidate) (bundles : List (List Vote))
    : List Gate.Request :=
  .vote candidate ⟨roster, none⟩ :: bundles.map .deliver

theorem Gate.exists_reachable_script (ballots : List Vote) (roster : Roster) (number : UInt8)
    (candidate : Candidate) (bundles : List (List Vote))
    (own : Signed ballots (.numbered number) candidate)
    (genuine : ∀ bundle ∈ bundles, ∀ vote ∈ bundle, vote ∈ ballots)
    : ∃ session,
        Gate.Session.Reachable (.numbered number) 10
            (Gate.Request.Faithful (.numbered number) roster (Signed ballots)) session
        ∧ session.gate = Gate.after (.numbered number) 10 (script roster candidate bundles) := by
  refine Gate.exists_reachable_after _ _ (List.forall_mem_cons.mpr ⟨⟨rfl, ?_⟩, ?_⟩)
  · rintro _ ⟨⟩
    exact own
  · intro request member
    obtain ⟨bundle, inside, rfl⟩ := List.mem_map.mp member
    exact fun vote there _ _ => ⟨vote, genuine bundle inside vote there, rfl, rfl⟩

-----------------------------------------------------------------------------------------
-- Commits
-----------------------------------------------------------------------------------------

section

variable {roster : Roster} {round : Round} {signed : PublicKey → Candidate → Prop}
  {faulty : Finset PublicKey} {settings settings' : Gate.Settings} {window window' : UInt64}
  {left right : Gate.Session}

/-- Two gates commit the same block of a round or none, whatever they are asked and whichever
votes they see in which order; the common key of both supermajorities is the witness.
-/
theorem commits_agree (tolerates : roster.Tolerates round signed faulty)
    (left_reachable
      : Gate.Session.Reachable settings window
          (Gate.Request.Faithful settings roster signed) left)
    (right_reachable
      : Gate.Session.Reachable settings' window'
          (Gate.Request.Faithful settings' roster signed) right)
    {outcome other : Outcome} (stored : left.gate.book.decision round = some outcome)
    (stored' : right.gate.book.decision round = some other) (commit : outcome.kind = .commit)
    : other.kind ≠ .nothing
      ∧ (other.kind = .commit →
          ∃ candidate, outcome.winner = some candidate ∧ other.winner = some candidate) := by
  obtain ⟨choices, decides⟩ := left_reachable.backed.gate.book.decides stored
  obtain ⟨choices', decides'⟩ := right_reachable.backed.gate.book.decides stored'
  generalize outcome.kind = kind, outcome.winner = winner at decides commit
  generalize other.kind = kind', other.winner = winner' at decides'
  subst commit
  cases decides with
  | commit block carries =>
      cases decides' with
      | commit block' carries' =>
          obtain rfl := tolerates.carried_eq choices choices' carries carries'
          exact ⟨by simp, fun _ => ⟨_, rfl, rfl⟩⟩
      | nothing carries' =>
          obtain rfl := tolerates.carried_eq choices choices' carries carries'
          exact absurd (Candidate.isEmpty_empty round) block
      | reject deadlock => exact ⟨by simp, by simp⟩

end

/-- Three of four peers vote for one block, and the fourth one for two. -/
def ballotsForOne : List Vote :=
  [.numbered 1 (.numbered 1), .numbered 2 (.numbered 1), .numbered 3 (.numbered 1),
    .numbered 4 (.numbered 1), .numbered 4 (.numbered 2)]

/-- The fourth peer shows its votes to different nodes, and these still commit one block. -/
theorem commits_agree_among_four
    : ∃ (left right : Gate.Session) (outcome other : Outcome),
        left.gate.book.decision ⟨5, 0⟩ = some outcome
        ∧ right.gate.book.decision ⟨5, 0⟩ = some other
        ∧ outcome.kind = .commit ∧ other.kind = .commit
        ∧ ∃ candidate, outcome.winner = some candidate ∧ other.winner = some candidate := by
  have tolerates : Roster.four.Tolerates ⟨5, 0⟩ (Signed ballotsForOne) {.numbered 4} :=
    Roster.tolerates_of_ballots _ (by decide) (by decide)
  obtain ⟨left, reachable, gate⟩ :=
    Gate.exists_reachable_script ballotsForOne .four 1 (.numbered 1)
      [[.numbered 2 (.numbered 1)], [.numbered 4 (.numbered 1)]] (by decide) (by decide)
  obtain ⟨right, reachable', gate'⟩ :=
    Gate.exists_reachable_script ballotsForOne .four 2 (.numbered 1)
      [[.numbered 4 (.numbered 2)], [.numbered 1 (.numbered 1), .numbered 3 (.numbered 1)]]
      (by decide) (by decide)
  have stored
      : left.gate.book.decision ⟨5, 0⟩
        = some ⟨.commit, ⟨5, 0⟩, some (.numbered 1),
            [.numbered 1 (.numbered 1), .numbered 2 (.numbered 1), .numbered 4 (.numbered 1)],
            .primary⟩ := by
    rw [gate]
    decide
  have stored'
      : right.gate.book.decision ⟨5, 0⟩
        = some ⟨.commit, ⟨5, 0⟩, some (.numbered 1),
            [.numbered 2 (.numbered 1), .numbered 1 (.numbered 1), .numbered 3 (.numbered 1)],
            .primary⟩ := by
    rw [gate']
    decide
  have agree := commits_agree tolerates reachable reachable' stored stored' rfl
  exact ⟨left, right, _, _, stored, stored', rfl, rfl, agree.2 rfl⟩

-----------------------------------------------------------------------------------------
-- Rejections
-----------------------------------------------------------------------------------------

section

variable {roster : Roster} {round : Round} {signed : PublicKey → Candidate → Prop}
  {faulty : Finset PublicKey} {settings settings' : Gate.Settings} {window window' : UInt64}
  {left right : Gate.Session}

/-- The candidate with a supermajority of the votes, where the outcome tells of one. -/
def Outcome.carried? (outcome : Outcome) : Option Candidate :=
  match outcome.kind with
  | .commit => outcome.winner
  | .nothing => some (.empty outcome.round)
  | .reject | .future => none

/-- An accepted candidate is one with a supermajority. -/
theorem Outcome.carried?_of_accepted {outcome : Outcome} {candidate : Candidate}
    (accepted : outcome.decision = candidate.accepted) (own : candidate.round = outcome.round)
    : outcome.carried? = some candidate := by
  unfold Candidate.accepted at accepted
  split at accepted
  · next blank =>
      obtain ⟨kind, -⟩ := Prod.mk.inj accepted
      rw [carried?, kind, Candidate.isEmpty_iff.mp blank, own]
  · obtain ⟨kind, winner⟩ := Prod.mk.inj accepted
    rw [carried?, kind, winner]

theorem Roster.Decides.carries {choices : Choices} {outcome : Outcome} {candidate : Candidate}
    (decides : roster.Decides choices outcome.round outcome.kind outcome.winner)
    (carried : outcome.carried? = some candidate)
    : roster.Carries choices candidate := by
  unfold Outcome.carried? at carried
  generalize outcome.kind = kind, outcome.winner = winner at decides carried
  cases decides with
  | commit _ carries => exact Option.some.inj carried ▸ carries
  | nothing carries => exact Option.some.inj carried ▸ carries
  | reject _ => cases carried

theorem Roster.Decides.deadlocked {choices : Choices} {outcome : Outcome}
    (decides : roster.Decides choices round outcome.kind outcome.winner)
    (kind : outcome.kind = .reject)
    : roster.Deadlocked choices := by
  generalize outcome.winner = winner at decides
  rw [kind] at decides
  cases decides with
  | reject deadlock => exact deadlock

/-- Where one gate rejected a round, another one gives a candidate the supermajority only by faulty
peers that were counted for another candidate at the first: with their help, but not without, all
peers outstanding there could make up the threshold.
-/
theorem reject_outvoted_by_turncoats (tolerates : roster.Tolerates round signed faulty)
    (left_reachable
      : Gate.Session.Reachable settings window
          (Gate.Request.Faithful settings roster signed) left)
    (right_reachable
      : Gate.Session.Reachable settings' window'
          (Gate.Request.Faithful settings' roster signed) right)
    {reject other : Outcome} (rejected : left.gate.book.decision round = some reject)
    (kind : reject.kind = .reject) (stored : right.gate.book.decision round = some other)
    {candidate : Candidate} (carried : other.carried? = some candidate)
    : let counted := reject.votes.countP fun vote => decide (vote.candidate = candidate)
      let outstanding := roster.size - reject.votes.length
      counted + outstanding < roster.threshold
      ∧ ∃ turned ⊆ faulty,
          roster.threshold ≤ counted + outstanding + turned.card
          ∧ ∀ key ∈ turned, roster.Has key ∧ signed key candidate
              ∧ ∃ vote ∈ reject.votes, vote.key = key ∧ vote.candidate ≠ candidate := by
  have book := left_reachable.backed.gate.book
  have book' := right_reachable.backed.gate.book
  obtain ⟨choices, decides⟩ := book.decides rejected
  obtain ⟨choices', decides'⟩ := book'.decides stored
  have poll := book.poll round
  have reached := poll.decided reject rejected
  have deadlock := decides.deadlocked kind
  obtain rfl := book'.round_of_decision stored
  have carries := decides'.carries carried
  intro counted outstanding
  have counted_eq := poll.coherent.countP_of_reject reached kind candidate
  have outstanding_eq := poll.coherent.outstanding_of_reject reached kind
  have bound := roster.card_supporters_le_add (left.gate.book.poll other.round).choices
    (right.gate.book.poll other.round).choices candidate
  rw [← counted_eq, ← outstanding_eq] at bound
  refine ⟨?_, roster.turncoats _ _ candidate,
    tolerates.turncoats_subset choices choices' candidate, Nat.le_trans carries bound, ?_⟩
  · have short := deadlock.2 candidate
    rwa [← counted_eq, ← outstanding_eq] at short
  · intro key turned
    obtain ⟨has, choice, earlier, chosen, differ⟩ := Roster.mem_turncoats.mp turned
    obtain ⟨vote, member, rfl, rfl⟩ := poll.coherent.choices_eq_some.mp chosen
    refine ⟨has, choices'.signed vote.key candidate choice, vote, ?_, rfl, differ⟩
    have listed := poll.coherent.votes_of_reject reached kind
    exact listed.mem_iff.mpr (List.mem_filter.mpr ⟨member, decide_eq_true has⟩)

end

/-- Two of four peers vote for one block, one for another, and the fourth one for both. -/
def ballotsForTwo : List Vote :=
  [.numbered 1 (.numbered 1), .numbered 2 (.numbered 1), .numbered 3 (.numbered 2),
    .numbered 4 (.numbered 1), .numbered 4 (.numbered 2)]

/-- The outcome of the first peer, to which the fourth one votes for the second block. -/
def rejection : Outcome :=
  ⟨.reject, ⟨5, 0⟩, none,
    [.numbered 1 (.numbered 1), .numbered 2 (.numbered 1), .numbered 3 (.numbered 2),
      .numbered 4 (.numbered 2)],
    .primary⟩

/-- The outcome of the second peer, to which the fourth one votes for the first block. -/
def commitment : Outcome :=
  ⟨.commit, ⟨5, 0⟩, some (.numbered 1),
    [.numbered 2 (.numbered 1), .numbered 1 (.numbered 1), .numbered 4 (.numbered 1)],
    .primary⟩

theorem tolerates_ballotsForTwo
    : Roster.four.Tolerates ⟨5, 0⟩ (Signed ballotsForTwo) {.numbered 4} :=
  Roster.tolerates_of_ballots _ (by decide) (by decide)

theorem exists_rejection
    : ∃ session,
        Gate.Session.Reachable (.numbered 1) 10
            (Gate.Request.Faithful (.numbered 1) .four (Signed ballotsForTwo)) session
        ∧ session.gate.book.decision ⟨5, 0⟩ = some rejection := by
  obtain ⟨session, reachable, gate⟩ :=
    Gate.exists_reachable_script ballotsForTwo .four 1 (.numbered 1)
      [[.numbered 2 (.numbered 1)], [.numbered 3 (.numbered 2), .numbered 4 (.numbered 2)]]
      (by decide) (by decide)
  refine ⟨session, reachable, ?_⟩
  rw [gate]
  decide

theorem exists_commitment
    : ∃ session,
        Gate.Session.Reachable (.numbered 2) 10
            (Gate.Request.Faithful (.numbered 2) .four (Signed ballotsForTwo)) session
        ∧ session.gate.book.decision ⟨5, 0⟩ = some commitment := by
  obtain ⟨session, reachable, gate⟩ :=
    Gate.exists_reachable_script ballotsForTwo .four 2 (.numbered 1)
      [[.numbered 1 (.numbered 1)], [.numbered 4 (.numbered 1)]] (by decide) (by decide)
  refine ⟨session, reachable, ?_⟩
  rw [gate]
  decide

/-- A rejection does not exclude that another gate commits: four peers, one of them faulty. -/
theorem not_reject_excludes_commit
    : ¬ ∀ (roster : Roster) (round : Round) (signed : PublicKey → Candidate → Prop)
          (faulty : Finset PublicKey) (settings settings' : Gate.Settings)
          (window window' : UInt64) (left right : Gate.Session) (reject other : Outcome),
        roster.Tolerates round signed faulty →
        Gate.Session.Reachable settings window
          (Gate.Request.Faithful settings roster signed) left →
        Gate.Session.Reachable settings' window'
          (Gate.Request.Faithful settings' roster signed) right →
        left.gate.book.decision round = some reject → reject.kind = .reject →
        right.gate.book.decision round = some other →
        other.kind ≠ .commit ∧ other.kind ≠ .nothing := by
  intro excludes
  obtain ⟨left, reachable, rejected⟩ := exists_rejection
  obtain ⟨right, reachable', committed⟩ := exists_commitment
  have excluded := excludes .four ⟨5, 0⟩ _ _ _ _ _ _ left right rejection commitment
    tolerates_ballotsForTwo reachable reachable' rejected rfl committed
  exact excluded.1 rfl

/-- The fourth peer is the one that was counted for the second block at the rejecting gate. -/
theorem reject_outvoted_among_four
    : ∃ left right : Gate.Session,
        left.gate.book.decision ⟨5, 0⟩ = some rejection
        ∧ right.gate.book.decision ⟨5, 0⟩ = some commitment
        ∧ rejection.kind = .reject ∧ commitment.carried? = some (.numbered 1)
        ∧ ∃ turned : Finset PublicKey, turned ⊆ {.numbered 4}
          ∧ Roster.four.threshold
            ≤ rejection.votes.countP (fun vote => decide (vote.candidate = .numbered 1))
              + (Roster.four.size - rejection.votes.length) + turned.card := by
  obtain ⟨left, reachable, rejected⟩ := exists_rejection
  obtain ⟨right, reachable', committed⟩ := exists_commitment
  obtain ⟨-, turned, faulty, outvoted, -⟩ :=
    reject_outvoted_by_turncoats tolerates_ballotsForTwo reachable reachable' rejected rfl
      committed rfl
  exact ⟨left, right, rejected, committed, rfl, rfl, turned, faulty, outvoted⟩

end Quorum
