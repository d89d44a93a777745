import Quorum.Proofs.Poll.Finality

/-! The votes that an outcome rests on, taken by themselves. Those for an accepted candidate decide a
round again, under the same roster. Those of a rejection are the votes of the primary's peers; they
reject a round again only if they leave the alternative deadlocked too.
-/

namespace Quorum

-----------------------------------------------------------------------------------------
-- Some of the votes
-----------------------------------------------------------------------------------------

/-- The choices of a roster's peers alone. -/
def Choices.within (choices : Choices) (roster : Roster) : Choices :=
  fun key => if roster.Has key then choices key else none

theorem Choices.within_eq_some {choices : Choices} {roster : Roster} {key : PublicKey}
    {candidate : Candidate}
    : choices.within roster key = some candidate
      ↔ roster.Has key ∧ choices key = some candidate := by
  simp [within]

namespace Poll

section

variable {poll : Poll} {roster : Roster} {votes : List Vote}

/-- Votes that a poll has counted make the choices of their keys known to another one. -/
theorem Coherent.choices_ofVotes_of_counted (coherent : poll.Coherent)
    (counted : ∀ vote ∈ votes, vote ∈ poll.voters) {key : PublicKey} {candidate : Candidate}
    : (ofVotes poll.round votes).choices key = some candidate
      ↔ ∃ vote ∈ votes, vote.key = key ∧ vote.candidate = candidate := by
  rw [choices_ofVotes, coherent.firstChoice?_of_counted counted]

/-- They show no choices that the poll does not know. -/
theorem Coherent.extends_choices_of_counted (coherent : poll.Coherent)
    (counted : ∀ vote ∈ votes, vote ∈ poll.voters)
    : poll.choices.Extends (ofVotes poll.round votes).choices := by
  intro key candidate choice
  obtain ⟨vote, member, own, same⟩ := (coherent.choices_ofVotes_of_counted counted).mp choice
  exact coherent.choices_eq_some.mpr ⟨vote, counted vote member, own, same⟩

/-- The votes of an accepted candidate lead to the same verdict by themselves, in any order. -/
theorem Coherent.verdict_again (coherent : poll.Coherent) {kind : OutcomeKind}
    {candidate : Candidate} (verdict : poll.verdict roster = .decided kind candidate votes)
    {order : List Vote} (same : order.Perm votes)
    : ∃ listed, (ofVotes poll.round order).verdict roster = .decided kind candidate listed := by
  have among {vote : Vote} : vote ∈ order ↔ _ :=
    same.mem_iff.trans (coherent.mem_votes_of_decided verdict)
  have counted (vote : Vote) (member : vote ∈ order) : vote ∈ poll.voters := (among.mp member).1
  obtain ⟨carries, accepted⟩ := coherent.carries_of_verdict verdict
  have carries_again : roster.Carries (ofVotes poll.round order).choices candidate := by
    refine Nat.le_trans carries (Finset.card_le_card fun key supports => ?_)
    obtain ⟨has, choice⟩ := Roster.mem_supporters.mp supports
    obtain ⟨vote, member, rfl, own⟩ := coherent.choices_eq_some.mp choice
    have listed : vote ∈ order := among.mpr ⟨member, has, own⟩
    exact Roster.mem_supporters.mpr
      ⟨has, (coherent.choices_ofVotes_of_counted counted).mpr ⟨vote, listed, rfl, own⟩⟩
  have coherent_again := coherent_ofVotes poll.round order
  obtain ⟨kind', winner, listed, verdict'⟩ := coherent_again.verdict_of_carries carries_again
  obtain ⟨wins, accepted'⟩ := coherent_again.carries_of_verdict verdict'
  obtain rfl := wins.unique carries_again
  obtain rfl : kind' = kind := congrArg Prod.fst (accepted'.trans accepted.symm)
  exact ⟨listed, verdict'⟩

end

end Poll

-----------------------------------------------------------------------------------------
-- Certificates
-----------------------------------------------------------------------------------------

/-- The votes of an outcome show, to whoever knows the electorate, that a candidate is accepted by
the roster on the outcome's side.
-/
structure Outcome.Certifies (outcome : Outcome) (electorate : Electorate) (roster : Roster)
    (candidate : Candidate)
    : Prop where
  seat : electorate.roster? outcome.side = some roster
  ofRound : candidate.round = outcome.round
  accepted : outcome.decision = candidate.accepted
  distinctKeys : (outcome.votes.map Vote.key).Nodup
  forCandidate : ∀ vote ∈ outcome.votes, vote.candidate = candidate
  byPeers : ∀ vote ∈ outcome.votes, roster.Has vote.key
  enough : roster.threshold ≤ outcome.votes.length

namespace Poll

section

variable {round : Round} {poll : Poll} {electorate : Electorate} {outcome : Outcome}

/-- A verdict for a candidate is a certificate. -/
theorem Coherent.certifies (coherent : poll.Coherent) {side : Side} {roster : Roster}
    {kind : OutcomeKind} {candidate : Candidate} {votes : List Vote}
    (seat : electorate.roster? side = some roster)
    (verdict : poll.verdict roster = .decided kind candidate votes)
    : Outcome.Certifies
        ⟨kind, poll.round, if kind = .commit then some candidate else none, votes, side⟩
        electorate roster candidate := by
  obtain ⟨carries, accepted⟩ := coherent.carries_of_verdict verdict
  have among {vote : Vote} : vote ∈ votes ↔ _ := coherent.mem_votes_of_decided verdict
  have listed := coherent.votes_of_decided verdict
  constructor
  · exact seat
  · exact coherent.round_of_carries carries
  · exact accepted
  · rw [listed]
    exact coherent.distinctKeys.sublist (List.filter_sublist.map _)
  · exact fun vote member => (among.mp member).2.2
  · exact fun vote member => (among.mp member).2.1
  · rw [listed, ← List.countP_eq_length_filter, ← coherent.card_supporters]
    exact carries

/-- Fewer votes do not give the primary a decision. -/
theorem Coherent.undecided_of_counted (coherent : poll.Coherent) {roster : Roster}
    {votes : List Vote} (counted : ∀ vote ∈ votes, vote ∈ poll.voters)
    (undecided
      : ∀ kind candidate listed, poll.verdict roster ≠ .decided kind candidate listed)
    (kind : OutcomeKind) (candidate : Candidate) (listed : List Vote)
    : (ofVotes poll.round votes).verdict roster ≠ .decided kind candidate listed := by
  intro verdict
  have carries := ((coherent_ofVotes poll.round votes).carries_of_verdict verdict).1
  obtain ⟨_, _, _, decided⟩ :=
    coherent.verdict_of_carries (carries.mono (coherent.extends_choices_of_counted counted))
  exact undecided _ _ _ decided

/-- A commit, or nothing, is a certificate for its candidate: votes of different peers of the roster
that it names, a threshold of them and all for the candidate, with which no other one has a
supermajority. In any order these votes lead an empty poll to the same decision on the same side.
-/
theorem acceptance_certified (reachable : Reachable round poll)
    (reached : poll.outcome? electorate = some outcome)
    (accepts : outcome.kind = .commit ∨ outcome.kind = .nothing)
    : ∃ roster candidate,
        outcome.Certifies electorate roster candidate
        ∧ outcome.round = round
        ∧ (∀ pile ∈ poll.piles, Supermajority.Reached (pile.countIn roster) roster.size →
            pile.candidate = candidate)
        ∧ ∀ votes : List Vote, votes.Perm outcome.votes →
            ∃ again,
              (ofVotes round votes).outcome? electorate = some again
              ∧ again.decision = outcome.decision ∧ again.side = outcome.side := by
  have coherent := reachable.coherent
  obtain rfl := reachable.round_eq
  cases outcome?_eq_some_iff.mp reached with
  | rejected _ _ => rcases accepts with kind | kind <;> cases kind
  | @decided side roster kind candidate votes seat verdict first =>
      refine ⟨roster, candidate, coherent.certifies seat verdict, rfl, ?_, ?_⟩
      · intro pile member wins
        rw [coherent.countIn_eq roster member] at wins
        exact (reached_iff.mp wins).unique (coherent.carries_of_verdict verdict).1
      · intro order same
        have counted (vote : Vote) (member : vote ∈ order) : vote ∈ poll.voters :=
          ((coherent.mem_votes_of_decided verdict).mp (same.mem_iff.mp member)).1
        obtain ⟨listed, verdict'⟩ := coherent.verdict_again verdict same
        refine ⟨_, outcome?_eq_some_iff.mpr (.decided seat verdict' ?_), rfl, rfl⟩
        exact fun alternative => coherent.undecided_of_counted counted (first alternative)

end

/-- The new roster agrees on a block, the old one does not, one peer votes twice, and a stranger
votes along.
-/
def newerVotes : List Vote :=
  [.numbered 1 (.numbered 2), .numbered 3 (.numbered 1), .numbered 9 (.numbered 1),
    .numbered 4 (.numbered 1), .numbered 3 (.numbered 2), .numbered 5 (.numbered 1)]

theorem acceptance_certified_on_other_side
    : let poll := ofVotes ⟨5, 0⟩ newerVotes
      ∃ outcome,
        poll.outcome? .six = some outcome ∧ outcome.decision = (.commit, some (.numbered 1))
        ∧ outcome.Certifies .six .newer (.numbered 1)
        ∧ ∃ again,
            (ofVotes ⟨5, 0⟩ outcome.votes.reverse).outcome? .six = some again
            ∧ again.decision = (.commit, some (.numbered 1)) ∧ again.side = .alternative := by
  intro poll
  have start : Reachable ⟨5, 0⟩ poll := .insert .refl newerVotes
  have told : (poll.outcome? .six).map (fun outcome => (outcome.decision, outcome.side))
      = some ((.commit, some (.numbered 1)), .alternative) := by decide
  obtain ⟨outcome, reached, equal⟩ := Option.map_eq_some_iff.mp told
  obtain ⟨decision, side⟩ := Prod.mk.inj equal
  have kind : outcome.kind = .commit := congrArg Prod.fst decision
  obtain ⟨roster, candidate, certifies, -, -, replay⟩ :=
    acceptance_certified start reached (.inl kind)
  obtain ⟨again, reached', decision', side'⟩ := replay _ outcome.votes.reverse_perm
  have seat := certifies.seat
  rw [side] at seat
  obtain rfl : Roster.newer = roster := Option.some.inj seat
  have accepted := decision.symm.trans certifies.accepted
  obtain rfl : Candidate.numbered 1 = candidate := by
    unfold Candidate.accepted at accepted
    split at accepted
    · cases accepted
    · exact Option.some.inj (congrArg Prod.snd accepted)
  exact ⟨outcome, reached, decision, certifies, again, reached', decision'.trans decision,
    side'.trans side⟩

-----------------------------------------------------------------------------------------
-- The votes of a rejection
-----------------------------------------------------------------------------------------

section

variable {round : Round} {poll : Poll} {electorate : Electorate} {outcome : Outcome}

/-- A rejection rests on the votes of the primary's peers, whatever the alternative. -/
theorem Coherent.votes_of_rejection (coherent : poll.Coherent)
    (reached : poll.outcome? electorate = some outcome) (kind : outcome.kind = .reject)
    : outcome.votes.Perm
        (poll.voters.filter fun vote => decide (electorate.primary.Has vote.key)) := by
  cases outcome?_eq_some_iff.mp reached with
  | decided _ verdict _ => rcases kind_of_verdict verdict with rfl | rfl <;> cases kind
  | rejected verdict _ => exact coherent.votes_of_rejected verdict

/-- By themselves they show what the primary's peers have chosen, and no more. -/
theorem Coherent.choices_of_rejection (coherent : poll.Coherent)
    (reached : poll.outcome? electorate = some outcome) (kind : outcome.kind = .reject)
    {votes : List Vote} (same : votes.Perm outcome.votes)
    : (ofVotes poll.round votes).choices = poll.choices.within electorate.primary := by
  have among {vote : Vote}
      : vote ∈ votes ↔ vote ∈ poll.voters ∧ electorate.primary.Has vote.key := by
    rw [(same.trans (coherent.votes_of_rejection reached kind)).mem_iff, List.mem_filter,
      decide_eq_true_iff]
  funext key
  refine Option.ext fun candidate => ?_
  rw [coherent.choices_ofVotes_of_counted fun vote member => (among.mp member).1,
    Choices.within_eq_some, coherent.choices_eq_some]
  constructor
  · rintro ⟨vote, member, rfl, own⟩
    obtain ⟨counted, has⟩ := among.mp member
    exact ⟨has, vote, counted, rfl, own⟩
  · rintro ⟨has, vote, counted, rfl, own⟩
    exact ⟨vote, among.mpr ⟨counted, has⟩, rfl, own⟩

/-- The votes of a rejection are those of the primary's peers. By themselves they reject again if
they leave the alternative deadlocked, as they do if there is none, and otherwise decide nothing.
-/
theorem rejection_repeated_iff_deadlocked (reachable : Reachable round poll)
    (reached : poll.outcome? electorate = some outcome) (kind : outcome.kind = .reject)
    : outcome.votes.Perm
          (poll.voters.filter fun vote => decide (electorate.primary.Has vote.key))
      ∧ ∀ votes : List Vote, votes.Perm outcome.votes →
          ((∃ again, (ofVotes round votes).outcome? electorate = some again ∧ again.kind = .reject)
            ↔ ∀ roster, electorate.alternative = some roster →
                roster.Deadlocked (poll.choices.within electorate.primary))
          ∧ ∀ again, (ofVotes round votes).outcome? electorate = some again →
              again.kind = .reject := by
  have coherent := reachable.coherent
  obtain rfl := reachable.round_eq
  have deadlock := coherent.rejects_iff.mp ⟨outcome, reached, kind⟩
  refine ⟨coherent.votes_of_rejection reached kind, fun votes same => ?_⟩
  have coherent_again := coherent_ofVotes poll.round votes
  have choices := coherent.choices_of_rejection reached kind same
  constructor
  · rw [coherent_again.rejects_iff, choices]
    constructor
    · exact fun stuck roster known => stuck roster (.inr known)
    · rintro stuck roster (rfl | known)
      · exact (deadlock _ (.inl rfl)).congr fun key has => by simp [Choices.within, has]
      · exact stuck roster known
  · intro again reached'
    have decides := coherent_again.decides_of_outcome?_under reached'
    have fewer : poll.choices.Extends (ofVotes poll.round votes).choices := by
      rw [choices]
      exact fun key candidate choice => (Choices.within_eq_some.mp choice).2
    exact congrArg Prod.fst ((decides.mono fewer).eq_of_deadlocked deadlock)

end

/-- Five of six peers have left both rosters deadlocked, but the four votes that the rejection
rests on leave the newer roster undecided. The older one by itself they deadlock again.
-/
theorem rejection_repeated_by_four_only
    : let poll := ofVotes ⟨5, 0⟩ deadlockedVotes
      (∃ outcome,
        poll.outcome? .six = some outcome ∧ outcome.kind = .reject
        ∧ (ofVotes ⟨5, 0⟩ outcome.votes.reverse).outcome? .six = none)
      ∧ ∃ outcome,
          poll.outcome? ⟨.four, none⟩ = some outcome ∧ outcome.kind = .reject
          ∧ ∃ again,
              (ofVotes ⟨5, 0⟩ outcome.votes.reverse).outcome? ⟨.four, none⟩ = some again
              ∧ again.kind = .reject := by
  intro poll
  have start : Reachable ⟨5, 0⟩ poll := .insert .refl deadlockedVotes
  constructor
  · have rejected : (poll.outcome? .six).map Outcome.kind = some .reject := by decide
    obtain ⟨outcome, reached, kind⟩ := Option.map_eq_some_iff.mp rejected
    obtain ⟨-, replay⟩ := rejection_repeated_iff_deadlocked start reached kind
    obtain ⟨repeats, only⟩ := replay _ outcome.votes.reverse_perm
    have undecided : ¬ Roster.newer.Deadlocked (poll.choices.within .four) :=
      fun stuck => absurd stuck.1 (by decide)
    refine ⟨outcome, reached, kind, ?_⟩
    refine Option.eq_none_iff_forall_ne_some.mpr fun again reached' => undecided ?_
    exact repeats.mp ⟨again, reached', only again reached'⟩ .newer rfl
  · have rejected : (poll.outcome? ⟨.four, none⟩).map Outcome.kind = some .reject := by decide
    obtain ⟨outcome, reached, kind⟩ := Option.map_eq_some_iff.mp rejected
    obtain ⟨-, replay⟩ := rejection_repeated_iff_deadlocked start reached kind
    exact ⟨outcome, reached, kind, (replay _ outcome.votes.reverse_perm).1.mpr nofun⟩

/-- A rejection under two rosters cannot be shown to others by its votes. -/
theorem not_rejection_repeated
    : ¬ ∀ (primary alternative : Roster) (round : Round) (poll : Poll) (outcome : Outcome),
        Roster.ofPeers primary.peers = .ok primary →
        Roster.ofPeers alternative.peers = .ok alternative →
        Reachable round poll →
        poll.outcome? ⟨primary, some alternative⟩ = some outcome →
        outcome.kind = .reject →
          ∃ again,
            (ofVotes round outcome.votes).outcome? ⟨primary, some alternative⟩ = some again
            ∧ again.kind = .reject := by
  intro repeated
  have told
      : ((ofVotes ⟨5, 0⟩ deadlockedVotes).outcome? .six).map
            (fun outcome => (outcome.kind, (ofVotes ⟨5, 0⟩ outcome.votes).outcome? .six))
        = some (.reject, none) := by decide
  obtain ⟨outcome, reached, equal⟩ := Option.map_eq_some_iff.mp told
  obtain ⟨kind, undecided⟩ := Prod.mk.inj equal
  obtain ⟨again, reached', -⟩ :=
    repeated .four .newer ⟨5, 0⟩ _ outcome Roster.ofPeers_four Roster.ofPeers_newer
      (.insert .refl deadlockedVotes) reached kind
  exact absurd (undecided.symm.trans reached') nofun

end Poll

end Quorum
