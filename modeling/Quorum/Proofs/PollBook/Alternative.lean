import Quorum.Proofs.Poll.Electorate
import Quorum.Proofs.PollBook.Arrival
import Quorum.Proofs.PollBook.Growth

/-! Votes that arrive one by one in a round that two rosters may decide. Their order matters only if
each roster in the end carries a candidate of its own; the round then goes to the one whose votes
come first.
-/

namespace Quorum

namespace PollBook

/-- The round is the current one, and has no votes. -/
structure Fresh (book : PollBook) (round : Round) : Prop where
  current : book.current = round
  empty : book.poll round = .empty round

/-- The votes are inserted one by one. -/
def oneByOne (electorate : Electorate) (round : Round) (votes : List Vote) : List Action :=
  votes.map fun vote => .insert round [vote] (some electorate)

/-- What is decided about the round when the votes have arrived one by one. -/
def result (book : PollBook) (electorate : Electorate) (round : Round) (votes : List Vote)
    : Option (OutcomeKind × Option Candidate) :=
  ((book.after (oneByOne electorate round votes)).decision round).map Outcome.decision

section

variable {electorate : Electorate} {round : Round} {book : PollBook} {seen votes : List Vote}

-----------------------------------------------------------------------------------------
-- One vote after the other
-----------------------------------------------------------------------------------------

/-- The poll of the round holds the votes seen so far, which do not suffice, or is decided as the
first of them were the first to decide.
-/
inductive Stands (electorate : Electorate) (round : Round) (seen : List Vote) (book : PollBook)
    : Prop
  | active (holds : book.poll round = .ofVotes round seen)
    (unmet : (Poll.ofVotes round seen).outcome? electorate = none)
  | decided {outcome : Outcome} {early late : List Vote}
    (decision : book.decision round = some outcome) (parts : seen = early ++ late)
    (decides : (Poll.ofVotes round early).outcome? electorate = some outcome)

theorem Fresh.stands (fresh : book.Fresh round) : Stands electorate round [] book :=
  .active fresh.empty (Poll.outcome?_empty round electorate)

/-- Further votes for the current round are counted at once, or come after the decision. -/
theorem Stands.insert (stands : Stands electorate round seen book) (current : book.current = round)
    (votes : List Vote)
    : Stands electorate round (seen ++ votes) (book.insert round votes (some electorate)).1 := by
  generalize result : book.insert round votes (some electorate) = receipt
  have ends := result ▸ book.insertion round votes (some electorate)
  cases stands with
  | active holds unmet =>
      have whole {poll : Poll} {intake : Intake}
          (taken : (book.poll round).insert votes = (poll, intake))
          : poll = .ofVotes round (seen ++ votes) := by
        rw [holds] at taken
        rw [← Poll.insert_ofVotes, taken]
      cases ends with
      | refused closed =>
          have frozen := closed (current ▸ book.admits_current)
          simp [Poll.Frozen, holds] at frozen
      | announced _ _ _ ahead _ _ | retained _ _ _ ahead _ =>
          exact absurd (current ▸ ahead) (Round.lt_irrefl _)
      | undecided _ _ taken _ still =>
          obtain rfl := whole taken
          exact .active (poll_put_own (Poll.round_ofVotes ..)) still
      | decided _ _ taken _ decides =>
          obtain rfl := whole taken
          refine .decided (decision_put_freeze (Poll.round_ofVotes ..) (Poll.decision_ofVotes ..) _)
            (List.append_nil _).symm decides
  | decided decision parts decides =>
      cases ends with
      | refused _ => exact .decided decision (by rw [parts, List.append_assoc]) decides
      | announced _ active _ _ _ _ | retained _ active _ _ _ | undecided _ active _ _ _
      | decided _ active _ _ _ =>
          rw [PollBook.decision, active] at decision
          cases decision

/-- By induction on the votes. -/
theorem Stands.run (stands : Stands electorate round seen book) (current : book.current = round)
    : Stands electorate round (seen ++ votes) (book.after (oneByOne electorate round votes)) := by
  induction votes generalizing seen book with
  | nil =>
      rw [List.append_nil]
      exact stands
  | cons vote votes ih =>
      have next := ih (stands.insert current [vote]) (by rw [current_insert, current])
      rwa [List.append_assoc] at next

theorem Fresh.stands_run (fresh : book.Fresh round) (electorate : Electorate) (votes : List Vote)
    : Stands electorate round votes (book.after (oneByOne electorate round votes)) := by
  have stands : Stands electorate round [] book := fresh.stands
  exact stands.run fresh.current

theorem current_oneByOne (book : PollBook)
    : (book.after (oneByOne electorate round votes)).current = book.current := by
  induction votes generalizing book with
  | nil => rfl
  | cons vote votes ih => exact (ih _).trans (current_insert ..)

/-- A decision stays. -/
theorem decision_oneByOne {outcome : Outcome} (current : book.current = round)
    (known : book.decision round = some outcome)
    : (book.after (oneByOne electorate round votes)).decision round = some outcome := by
  induction votes generalizing book with
  | nil => exact known
  | cons vote votes ih =>
      have same : (book.insert round [vote] (some electorate)).1.current = round := by
        rw [current_insert, current]
      have kept : ¬ (book.insert round [vote] (some electorate)).1.Expired round := by
        apply not_expired_of_le
        rw [same]
        exact Round.le_refl round
      exact ih same ((Grows.insert book round [vote] (some electorate)).decision kept known)

-----------------------------------------------------------------------------------------
-- What is decided in the end
-----------------------------------------------------------------------------------------

/-- What is decided is what all the votes decide: the first votes to decide are among them. -/
theorem Fresh.decides_of_result (fresh : book.Fresh round)
    {decision : OutcomeKind × Option Candidate}
    (known : book.result electorate round votes = some decision)
    : electorate.Decides (Poll.ofVotes round votes).choices decision := by
  have stands := fresh.stands_run electorate votes
  obtain ⟨outcome, stored, rfl⟩ := Option.map_eq_some_iff.mp known
  cases stands with
  | active holds _ => simp [PollBook.decision, holds] at stored
  | @decided first early late decided parts decides =>
      obtain rfl := Option.some.inj (decided.symm.trans stored)
      refine ((Poll.coherent_ofVotes round early).decides_of_outcome?_under decides).mono ?_
      rw [parts, ← Poll.insert_ofVotes]
      exact Poll.choices_insert_extends _ late

/-- If all the votes decide, something is decided. -/
theorem Fresh.exists_result (fresh : book.Fresh round) {decision : OutcomeKind × Option Candidate}
    (decides : electorate.Decides (Poll.ofVotes round votes).choices decision)
    : ∃ reached, book.result electorate round votes = some reached := by
  cases fresh.stands_run electorate votes with
  | active _ unmet =>
      obtain ⟨outcome, reached⟩ :=
        (Poll.coherent_ofVotes round votes).exists_outcome?_under decides
      rw [reached] at unmet
      cases unmet
  | decided decision _ _ => exact ⟨_, congrArg (·.map Outcome.decision) decision⟩

/-- Votes that come later change nothing. -/
theorem Fresh.result_append (fresh : book.Fresh round) {decision : OutcomeKind × Option Candidate}
    (known : book.result electorate round seen = some decision)
    : book.result electorate round (seen ++ votes) = some decision := by
  have current : (book.after (oneByOne electorate round seen)).current = round :=
    (current_oneByOne book).trans fresh.current
  obtain ⟨outcome, stored, rfl⟩ := Option.map_eq_some_iff.mp known
  rw [result, oneByOne, List.map_append, after_append]
  exact congrArg (·.map Outcome.decision) (decision_oneByOne current stored)

-----------------------------------------------------------------------------------------
-- The votes for one candidate first
-----------------------------------------------------------------------------------------

/-- The votes with those for a candidate at the front. -/
def candidateFirst (candidate : Candidate) (votes : List Vote) : List Vote :=
  votes.filter (fun vote => decide (vote.candidate = candidate))
    ++ votes.filter fun vote => !decide (vote.candidate = candidate)

theorem candidateFirst_perm (candidate : Candidate) (votes : List Vote)
    : (candidateFirst candidate votes).Perm votes :=
  List.filter_append_perm ..

/-- Whoever supports a candidate does so by a vote for it. -/
theorem carries_of_filter {roster : Roster} {candidate : Candidate}
    (carries : roster.Carries (Poll.ofVotes round votes).choices candidate)
    : roster.Carries
        (Poll.ofVotes round
          (votes.filter fun vote => decide (vote.candidate = candidate))).choices candidate := by
  have steady
      : Poll.Steady roster round (votes.filter fun vote => decide (vote.candidate = candidate)) := by
    intro vote member other member' _ _ _ _
    have own := of_decide_eq_true (List.mem_filter.mp member).2
    exact own.trans (of_decide_eq_true (List.mem_filter.mp member').2).symm
  refine Nat.le_trans carries (Finset.card_le_card fun key supports => ?_)
  obtain ⟨has, choice⟩ := Roster.mem_supporters.mp supports
  refine Roster.mem_supporters.mpr ⟨has, ?_⟩
  rw [Poll.choices_ofVotes] at choice ⊢
  obtain ⟨vote, member, ofRound, ofKey, same⟩ := Poll.exists_of_firstChoice? choice
  refine (steady.firstChoice?_eq_some has).mpr ⟨vote, ?_, ofRound, ofKey, same⟩
  exact List.mem_filter.mpr ⟨member, decide_eq_true same⟩

/-- A candidate that a roster carries is accepted if the votes for it come first. -/
theorem Fresh.result_candidateFirst (fresh : book.Fresh round) {roster : Roster}
    {candidate : Candidate} (included : electorate.Includes roster)
    (carries : roster.Carries (Poll.ofVotes round votes).choices candidate)
    : book.result electorate round (candidateFirst candidate votes) = some candidate.accepted := by
  have front := carries_of_filter carries
  obtain ⟨reached, known⟩ := fresh.exists_result (.accepted included front)
  apply fresh.result_append
  rw [known]
  obtain ⟨roster, winner, _, wins, rfl⟩ :=
    (fresh.decides_of_result known).exists_accepted included front
  obtain ⟨key, -, choice⟩ := wins.exists_supporter
  rw [Poll.choices_ofVotes] at choice
  obtain ⟨vote, member, -, -, rfl⟩ := Poll.exists_of_firstChoice? choice
  rw [of_decide_eq_true (List.mem_filter.mp member).2]

end

-----------------------------------------------------------------------------------------
-- Any order
-----------------------------------------------------------------------------------------

/-- A carried candidate is one of the round, since somebody voted for it. -/
theorem round_of_carries {roster : Roster} {round : Round} {votes : List Vote}
    {candidate : Candidate} (carries : roster.Carries (Poll.ofVotes round votes).choices candidate)
    : candidate.round = round := by
  obtain ⟨key, -, choice⟩ := carries.exists_supporter
  rw [Poll.choices_ofVotes] at choice
  obtain ⟨vote, -, ofRound, -, rfl⟩ := Poll.exists_of_firstChoice? choice
  exact ofRound

section

variable {electorate : Electorate} {round : Round} {votes order : List Vote} {book : PollBook}
  {decision : OutcomeKind × Option Candidate}

/-- What the votes decide in any order is what their choices decide. -/
theorem Fresh.decides_of_perm (fresh : book.Fresh round)
    (steady : ∀ roster, electorate.Includes roster → Poll.Steady roster round votes)
    (same : order.Perm votes) (known : book.result electorate round order = some decision)
    : electorate.Decides (Poll.ofVotes round votes).choices decision :=
  (fresh.decides_of_result known).congr fun roster included _ has =>
    (steady roster included).choices_perm same has

theorem Fresh.exists_of_perm (fresh : book.Fresh round)
    (steady : ∀ roster, electorate.Includes roster → Poll.Steady roster round votes)
    (same : order.Perm votes)
    (decides : electorate.Decides (Poll.ofVotes round votes).choices decision)
    : ∃ reached, book.result electorate round order = some reached :=
  fresh.exists_result (decides.congr fun roster included _ has =>
    ((steady roster included).choices_perm same has).symm)

/-- Without a contest a decision for one order is that for any other. -/
theorem Fresh.result_of_uncontested {other : PollBook} {again : List Vote} (fresh : book.Fresh round)
    (fresh' : other.Fresh round)
    (steady : ∀ roster, electorate.Includes roster → Poll.Steady roster round votes)
    (uncontested
      : ∀ first second, ¬ electorate.Contested (Poll.ofVotes round votes).choices first second)
    (same : order.Perm votes) (same' : again.Perm votes)
    (known : book.result electorate round order = some decision)
    : other.result electorate round again = some decision := by
  have decides := fresh.decides_of_perm steady same known
  obtain ⟨reached, known'⟩ := fresh'.exists_of_perm steady same' decides
  rw [known', decides.unique uncontested (fresh'.decides_of_perm steady same' known')]

/-- In a contest one of the two candidates is accepted. -/
theorem Fresh.result_of_contested {first second : Candidate} (fresh : book.Fresh round)
    (steady : ∀ roster, electorate.Includes roster → Poll.Steady roster round votes)
    (contested : electorate.Contested (Poll.ofVotes round votes).choices first second)
    (same : order.Perm votes)
    : book.result electorate round order = some first.accepted
      ∨ book.result electorate round order = some second.accepted := by
  obtain ⟨reached, known⟩ :=
    fresh.exists_of_perm steady same (.accepted (.inl rfl) contested.primary)
  rw [known, Option.some.injEq, Option.some.injEq]
  exact contested.accepted (fresh.decides_of_perm steady same known)

end

/-- No key that may vote in the round votes for two candidates. Then votes that arrive one by one
decide the same in any order, unless two candidates contest the round, one carried by each roster.
In that case one of the two is accepted, and for each there is an order in which it is the one.
-/
theorem result_by_order {electorate : Electorate} {round : Round} {votes : List Vote}
    (steady : ∀ roster, electorate.Includes roster → Poll.Steady roster round votes)
    : let choices := (Poll.ofVotes round votes).choices
      ((∀ first second, ¬ electorate.Contested choices first second) →
        ∀ (left right : PollBook) (order other : List Vote),
          left.Fresh round → right.Fresh round → order.Perm votes → other.Perm votes →
            left.result electorate round order = right.result electorate round other)
      ∧ ∀ first second, electorate.Contested choices first second →
          first.accepted ≠ second.accepted
          ∧ (∀ (book : PollBook) (order : List Vote), book.Fresh round → order.Perm votes →
              book.result electorate round order = some first.accepted
              ∨ book.result electorate round order = some second.accepted)
          ∧ (∃ order : List Vote, order.Perm votes ∧ ∀ book : PollBook, book.Fresh round →
              book.result electorate round order = some first.accepted)
          ∧ ∃ order : List Vote, order.Perm votes ∧ ∀ book : PollBook, book.Fresh round →
              book.result electorate round order = some second.accepted := by
  intro choices
  constructor
  · intro uncontested left right order other fresh fresh' same same'
    apply Option.ext
    intro decision
    constructor
    · exact fresh.result_of_uncontested fresh' steady uncontested same same'
    · exact fresh'.result_of_uncontested fresh steady uncontested same' same
  · intro first second contested
    refine ⟨?_, ?_, ?_, ?_⟩
    · obtain ⟨carries, ⟨alternative, known, carries'⟩, differ⟩ := contested
      have one_round := (round_of_carries carries).trans (round_of_carries carries').symm
      exact mt (Candidate.accepted_inj one_round).mp differ
    · intro book order fresh same
      exact fresh.result_of_contested steady contested same
    · exact ⟨candidateFirst first votes, candidateFirst_perm first votes,
        fun book fresh => fresh.result_candidateFirst (.inl rfl) contested.primary⟩
    · obtain ⟨alternative, known, carries⟩ := contested.alternative
      exact ⟨candidateFirst second votes, candidateFirst_perm second votes,
        fun book fresh => fresh.result_candidateFirst (.inr known) carries⟩

-----------------------------------------------------------------------------------------
-- Six peers
-----------------------------------------------------------------------------------------

/-- Three peers vote for one block and three for another one. -/
def splitVotes : List Vote :=
  [.numbered 1 (.numbered 1), .numbered 2 (.numbered 1), .numbered 3 (.numbered 1),
    .numbered 4 (.numbered 2), .numbered 5 (.numbered 2), .numbered 6 (.numbered 2)]

/-- Each block is committed in some order of the votes. -/
theorem result_by_order_of_six
    : let book : PollBook := ⟨10, ⟨5, 0⟩, []⟩
      (∃ order, order.Perm splitVotes
        ∧ book.result .six ⟨5, 0⟩ order = some (.commit, some (.numbered 1)))
      ∧ ∃ order, order.Perm splitVotes
          ∧ book.result .six ⟨5, 0⟩ order = some (.commit, some (.numbered 2)) := by
  intro book
  have fresh : book.Fresh ⟨5, 0⟩ := ⟨rfl, rfl⟩
  have steady (roster : Roster) (included : Electorate.six.Includes roster)
      : Poll.Steady roster ⟨5, 0⟩ splitVotes := by
    rcases included with rfl | known
    · decide
    · obtain rfl := Option.some.inj known
      decide
  have contested
      : Electorate.six.Contested (Poll.ofVotes ⟨5, 0⟩ splitVotes).choices (.numbered 1)
          (.numbered 2) := by
    refine ⟨?_, ⟨.newer, rfl, ?_⟩, by decide⟩
    · unfold Roster.Carries
      decide
    · unfold Roster.Carries
      decide
  obtain ⟨-, -, ⟨order, same, result⟩, ⟨other, same', result'⟩⟩ :=
    (result_by_order steady).2 _ _ contested
  exact ⟨⟨order, same, result book fresh⟩, ⟨other, same', result' book fresh⟩⟩

/-- With an alternative the order may matter, although each key votes for one candidate: the votes
for one block come first, or those for the other.
-/
theorem not_result_eq_of_perm
    : ¬ ∀ (primary alternative : Roster) (round : Round) (book : PollBook)
          (votes order : List Vote),
        Roster.ofPeers primary.peers = .ok primary →
        Roster.ofPeers alternative.peers = .ok alternative →
        book.Fresh round →
        (∀ vote ∈ votes, vote.round = round) →
        (∀ vote ∈ votes, ∀ other ∈ votes, vote.key = other.key → vote.candidate = other.candidate) →
        order.Perm votes →
          book.result ⟨primary, some alternative⟩ round order
            = book.result ⟨primary, some alternative⟩ round votes := by
  intro same
  have equal := same .four .newer ⟨5, 0⟩ ⟨10, ⟨5, 0⟩, []⟩ splitVotes splitVotes.reverse
    Roster.ofPeers_four Roster.ofPeers_newer ⟨rfl, rfl⟩ (by decide) (by decide) (by decide)
  revert equal
  decide

end PollBook

end Quorum
