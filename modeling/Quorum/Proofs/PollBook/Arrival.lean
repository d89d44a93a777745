import Quorum.Proofs.Poll.Decision
import Quorum.Proofs.PollBook.Lookup

/-! Votes for a round arrive in batches, some of them before the round is reached. Neither their
order nor the batches nor the moment at which the round is reached change what is decided.
-/

namespace Quorum

namespace Poll

-----------------------------------------------------------------------------------------
-- The mark of a reported round
-----------------------------------------------------------------------------------------

/-- The mark of a reported round has no part in taking in votes. -/
theorem insert_reported (poll : Poll) (reported : Bool) (votes : List Vote)
    : ({ poll with futureReported := reported }.insert votes).1
      = { (poll.insert votes).1 with futureReported := reported } := by
  have step (poll : Poll) (vote : Vote)
      : { poll with futureReported := reported }.take vote
        = { poll.take vote with futureReported := reported } := by
    unfold take receive
    split
    · rfl
    · simp only [firstVote?]
      split
      · rfl
      · split <;> rfl
  simp only [insert_fst]
  induction votes generalizing poll with
  | nil => rfl
  | cons vote rest ih => rw [List.foldl_cons, List.foldl_cons, step, ih]

end Poll

namespace PollBook

-----------------------------------------------------------------------------------------
-- Histories
-----------------------------------------------------------------------------------------

/-- What is done to a poll book. -/
inductive Action where
  | insert (round : Round) (votes : List Vote) (electorate : Option Electorate)
  | evaluate (round : Round) (electorate : Electorate)
  | advance (round : Round)

namespace Action

def apply (book : PollBook) : Action → PollBook
  | .insert round votes electorate => (book.insert round votes electorate).1
  | .evaluate round electorate => (book.evaluate round electorate).1
  | .advance round => book.advance round

/-- The votes that are inserted for a round. -/
def votesFor (round : Round) : Action → List Vote
  | .insert own votes _ => if own = round then votes else []
  | .evaluate _ _ | .advance _ => []

/-- What decides the round is decided by the roster. Ahead of the round nothing is. -/
def Consults (roster : Roster) (round : Round) (book : PollBook) : Action → Prop
  | .insert own _ electorate =>
      own = round → book.current < round ∨ electorate = some ⟨roster, none⟩
  | .evaluate own electorate => own = round → electorate = ⟨roster, none⟩
  | .advance _ => True

end Action

def after (book : PollBook) (history : List Action) : PollBook :=
  history.foldl Action.apply book

/-- All votes that a history inserts for a round, in order. -/
def votesFor (round : Round) (history : List Action) : List Vote :=
  history.flatMap (Action.votesFor round)

/-- Throughout the history the round lies in the window and is decided by the roster. -/
def Orderly (roster : Roster) (round : Round) (book : PollBook) : List Action → Prop
  | [] => book.Admits round
  | action :: rest =>
      book.Admits round ∧ action.Consults roster round book
        ∧ Orderly roster round (action.apply book) rest

@[simp] theorem after_nil (book : PollBook) : book.after [] = book := rfl

@[simp] theorem after_cons (book : PollBook) (action : Action) (rest : List Action)
    : book.after (action :: rest) = (action.apply book).after rest := rfl

theorem after_append (book : PollBook) (first second : List Action)
    : book.after (first ++ second) = (book.after first).after second :=
  List.foldl_append ..

@[simp] theorem votesFor_nil (round : Round) : votesFor round [] = [] := rfl

@[simp] theorem votesFor_cons (round : Round) (action : Action) (rest : List Action)
    : votesFor round (action :: rest) = action.votesFor round ++ votesFor round rest :=
  List.flatMap_cons

theorem votesFor_append (round : Round) (first second : List Action)
    : votesFor round (first ++ second) = votesFor round first ++ votesFor round second :=
  List.flatMap_append

theorem Orderly.admits {roster : Roster} {round : Round} {book : PollBook}
    {history : List Action} (orderly : Orderly roster round book history)
    : book.Admits round := by
  cases history with
  | nil => exact orderly
  | cons action rest => exact orderly.1

theorem Orderly.of_append {roster : Roster} {round : Round} {book : PollBook}
    {first second : List Action} (orderly : Orderly roster round book (first ++ second))
    : Orderly roster round book first ∧ Orderly roster round (book.after first) second := by
  induction first generalizing book with
  | nil => exact ⟨orderly.admits, orderly⟩
  | cons action rest ih =>
      obtain ⟨admits, consults, tail⟩ := orderly
      obtain ⟨front, back⟩ := ih tail
      exact ⟨⟨admits, consults, front⟩, back⟩

-----------------------------------------------------------------------------------------
-- What the book holds for the round
-----------------------------------------------------------------------------------------

/-- The poll of the round holds the votes seen so far, or is decided as these decide. -/
inductive Follows (roster : Roster) (round : Round) (seen : List Vote) (book : PollBook) : Prop
  | active (reported : Bool)
    (holds : book.poll round = { Poll.ofVotes round seen with futureReported := reported })
  | decided (outcome : Outcome) (decision : book.decision round = some outcome)
    (decides
      : roster.Decides (Poll.ofVotes round seen).choices round outcome.kind outcome.winner)

/-- The round is reached, and left undecided only if the votes seen so far do not suffice. -/
def Settled (roster : Roster) (round : Round) (seen : List Vote) (book : PollBook) : Prop :=
  ¬ book.current < round
  ∧ (book.decision round = none → (Poll.ofVotes round seen).outcome? ⟨roster, none⟩ = none)

theorem follows_of_untracked {book : PollBook} {round : Round} (roster : Roster)
    (untracked : book.poll? round = none)
    : Follows roster round [] book :=
  .active false (by rw [poll, untracked]; rfl)

theorem Follows.holds {roster : Roster} {round : Round} {seen : List Vote} {book : PollBook}
    (follows : Follows roster round seen book) (undecided : book.decision round = none)
    : ∃ reported,
        book.poll round = { Poll.ofVotes round seen with futureReported := reported } := by
  cases follows with
  | active reported holds => exact ⟨reported, holds⟩
  | decided outcome decision _ => rw [undecided] at decision; cases decision

/-- The poll after a further batch holds the votes of that batch too. -/
theorem Follows.taken {roster : Roster} {round : Round} {seen : List Vote} {book : PollBook}
    (follows : Follows roster round seen book) (undecided : book.decision round = none)
    {votes : List Vote} {poll : Poll} {intake : Intake}
    (taken : (book.poll round).insert votes = (poll, intake))
    : ∃ reported,
        poll = { Poll.ofVotes round (seen ++ votes) with futureReported := reported } := by
  obtain ⟨reported, holds⟩ := follows.holds undecided
  refine ⟨reported, ?_⟩
  have result := congrArg Prod.fst taken
  rw [holds, Poll.insert_reported, Poll.insert_ofVotes] at result
  exact result.symm

theorem Follows.congr {roster : Roster} {round : Round} {seen : List Vote} {book next : PollBook}
    (follows : Follows roster round seen book) (same : next.poll round = book.poll round)
    : Follows roster round seen next := by
  cases follows with
  | active reported holds => exact .active reported (same.trans holds)
  | decided outcome decision decides =>
      exact .decided outcome (by rw [PollBook.decision, same]; exact decision) decides

/-- A batch for the round is taken in, or comes after the decision. -/
theorem Follows.insert {roster : Roster} {round : Round} {seen : List Vote} {book : PollBook}
    (follows : Follows roster round seen book) (admits : book.Admits round) (votes : List Vote)
    {electorate : Option Electorate}
    (consults : book.current < round ∨ electorate = some ⟨roster, none⟩)
    : Follows roster round (seen ++ votes) (book.insert round votes electorate).1 := by
  generalize result : book.insert round votes electorate = receipt
  have ends := result ▸ book.insertion round votes electorate
  cases ends with
  | refused closed =>
      cases follows with
      | active reported holds =>
          have frozen := closed admits
          simp [Poll.Frozen, holds] at frozen
      | decided outcome decision decides =>
          refine .decided outcome decision (decides.mono ?_)
          rw [← Poll.insert_ofVotes]
          exact Poll.choices_insert_extends _ votes
  | announced _ active taken _ _ _ =>
      have own := round_of_taken taken
      obtain ⟨reported, rfl⟩ := follows.taken active taken
      exact .active true (poll_put_own own)
  | retained _ active taken _ _ =>
      have own := round_of_taken taken
      obtain ⟨reported, rfl⟩ := follows.taken active taken
      exact .active reported (poll_put_own own)
  | undecided _ active taken _ _ =>
      have own := round_of_taken taken
      obtain ⟨reported, rfl⟩ := follows.taken active taken
      exact .active reported (poll_put_own own)
  | decided _ active taken reached decides =>
      have undecided := (decision_of_taken taken).trans active
      refine .decided _ (decision_put_freeze (round_of_taken taken) undecided _) ?_
      obtain ⟨reported, rfl⟩ := follows.taken active taken
      obtain rfl := consults.resolve_left reached
      exact Poll.decides_of_outcome?_ofVotes decides

/-- An evaluation decides as the votes do, or nothing. -/
theorem Follows.evaluate {roster : Roster} {round : Round} {seen : List Vote} {book : PollBook}
    (follows : Follows roster round seen book)
    : Follows roster round seen (book.evaluate round ⟨roster, none⟩).1 := by
  generalize result : book.evaluate round ⟨roster, none⟩ = ruling
  have ends := result ▸ book.evaluation round ⟨roster, none⟩
  cases ends with
  | untracked _ | stored _ | undecided _ _ => exact follows
  | decided active decides =>
      refine .decided _ (decision_put_freeze (round_poll book round) active _) ?_
      obtain ⟨reported, holds⟩ := follows.holds active
      rw [holds] at decides
      exact Poll.decides_of_outcome?_ofVotes decides

theorem Follows.step {roster : Roster} {round : Round} {seen : List Vote} {book : PollBook}
    (follows : Follows roster round seen book) {action : Action} (admits : book.Admits round)
    (consults : action.Consults roster round book)
    (kept : (action.apply book).Admits round)
    : Follows roster round (seen ++ action.votesFor round) (action.apply book) := by
  cases action with
  | insert own votes electorate =>
      by_cases same : own = round
      · subst same
        simpa [Action.votesFor, Action.apply] using follows.insert admits votes (consults rfl)
      · simpa [Action.votesFor, Action.apply, same] using follows.congr (poll_insert_of_ne same)
  | evaluate own electorate =>
      by_cases same : own = round
      · subst same
        obtain rfl := consults rfl
        simpa [Action.votesFor, Action.apply] using follows.evaluate
      · simpa [Action.votesFor, Action.apply] using follows.congr (poll_evaluate_of_ne same)
  | advance next => simpa [Action.votesFor, Action.apply] using follows.congr (poll_advance kept.1)

/-- An orderly history is followed; by induction on its actions. -/
theorem Follows.run {roster : Roster} {round : Round} {seen : List Vote} {book : PollBook}
    {history : List Action} (follows : Follows roster round seen book)
    (orderly : Orderly roster round book history)
    : Follows roster round (seen ++ votesFor round history) (book.after history) := by
  induction history generalizing seen book with
  | nil => simpa using follows
  | cons action rest ih =>
      obtain ⟨admits, consults, tail⟩ := orderly
      simpa using ih (follows.step admits consults tail.admits) tail

-----------------------------------------------------------------------------------------
-- Decided as soon as possible
-----------------------------------------------------------------------------------------

/-- A book without votes for a round it has reached is settled. -/
theorem settled_of_untracked {book : PollBook} {round : Round} (roster : Roster)
    (reached : ¬ book.current < round)
    : Settled roster round [] book :=
  ⟨reached, fun _ => Poll.outcome?_empty round _⟩

/-- An evaluation settles a round that is reached. -/
theorem Follows.settled_evaluate {roster : Roster} {round : Round} {seen : List Vote}
    {book : PollBook} (follows : Follows roster round seen book)
    (reached : ¬ book.current < round)
    : Settled roster round seen (book.evaluate round ⟨roster, none⟩).1 := by
  refine ⟨by rwa [current_evaluate], fun still => ?_⟩
  generalize result : book.evaluate round ⟨roster, none⟩ = ruling at still
  have ends := result ▸ book.evaluation round ⟨roster, none⟩
  cases ends with
  | untracked absent =>
      obtain ⟨reported, holds⟩ := follows.holds still
      have same := congrArg (Poll.outcome? · ⟨roster, none⟩) holds
      rw [poll, absent] at same
      exact same.symm.trans (Poll.outcome?_empty round _)
  | stored known => rw [decision, known] at still; cases still
  | undecided active unmet =>
      obtain ⟨reported, holds⟩ := follows.holds active
      rwa [holds] at unmet
  | decided active decides =>
      rw [decision_put_freeze (round_poll book round) active] at still
      cases still

/-- A batch for a reached round is counted at once. -/
theorem Follows.settled_insert {roster : Roster} {round : Round} {seen : List Vote}
    {book : PollBook} (follows : Follows roster round seen book) (admits : book.Admits round)
    (reached : ¬ book.current < round) (votes : List Vote)
    : Settled roster round (seen ++ votes) (book.insert round votes (some ⟨roster, none⟩)).1 := by
  refine ⟨by rwa [current_insert], fun still => ?_⟩
  generalize result : book.insert round votes (some ⟨roster, none⟩) = receipt at still
  have ends := result ▸ book.insertion round votes (some ⟨roster, none⟩)
  cases ends with
  | refused closed =>
      have frozen := closed admits
      rw [Poll.Frozen, show (book.poll round).decision = none from still] at frozen
      cases frozen
  | announced _ _ _ ahead _ _ => exact absurd ahead reached
  | retained _ _ _ ahead _ => exact absurd ahead reached
  | undecided _ active taken _ unmet =>
      obtain ⟨reported, rfl⟩ := follows.taken active taken
      exact unmet
  | decided _ active taken _ decides =>
      have undecided := (decision_of_taken taken).trans active
      rw [decision_put_freeze (round_of_taken taken) undecided] at still
      cases still

/-- Each action keeps a settled round settled. -/
theorem Settled.step {roster : Roster} {round : Round} {seen : List Vote} {book : PollBook}
    (settled : Settled roster round seen book) (follows : Follows roster round seen book)
    {action : Action} (admits : book.Admits round)
    (consults : action.Consults roster round book)
    (kept : (action.apply book).Admits round)
    : Settled roster round (seen ++ action.votesFor round) (action.apply book) := by
  obtain ⟨reached, suffices_not⟩ := settled
  cases action with
  | insert own votes electorate =>
      by_cases same : own = round
      · subst same
        obtain rfl := (consults rfl).resolve_left reached
        simpa [Action.votesFor, Action.apply] using follows.settled_insert admits reached votes
      · simpa [Action.votesFor, same, Action.apply, Settled, decision, poll_insert_of_ne same] using
          And.intro reached suffices_not
  | evaluate own electorate =>
      by_cases same : own = round
      · subst same
        obtain rfl := consults rfl
        simpa [Action.votesFor, Action.apply] using follows.settled_evaluate reached
      · simpa [Action.votesFor, Action.apply, Settled, decision, poll_evaluate_of_ne same] using
          And.intro reached suffices_not
  | advance next =>
      refine ⟨not_current_advance_lt reached next, fun still => ?_⟩
      simp only [Action.apply, decision, poll_advance kept.1] at still
      simpa [Action.votesFor] using suffices_not still

theorem Settled.run {roster : Roster} {round : Round} {seen : List Vote} {book : PollBook}
    {history : List Action} (settled : Settled roster round seen book)
    (follows : Follows roster round seen book)
    (orderly : Orderly roster round book history)
    : Settled roster round (seen ++ votesFor round history) (book.after history) := by
  induction history generalizing seen book with
  | nil => simpa using settled
  | cons action rest ih =>
      obtain ⟨admits, consults, tail⟩ := orderly
      simpa using ih (settled.step follows admits consults tail.admits)
        (follows.step admits consults tail.admits) tail

/-- A settled round is decided exactly as its votes decide at once. -/
theorem Settled.decision_eq {roster : Roster} {round : Round} {seen : List Vote}
    {book : PollBook} (settled : Settled roster round seen book)
    (follows : Follows roster round seen book)
    : (book.decision round).map Outcome.decision
      = ((Poll.ofVotes round seen).outcome? ⟨roster, none⟩).map Outcome.decision := by
  cases stored : book.decision round with
  | none => rw [settled.2 stored]
  | some outcome =>
      have decides
          : roster.Decides (Poll.ofVotes round seen).choices round outcome.kind outcome.winner := by
        cases follows with
        | active reported holds => simp [decision, holds] at stored
        | decided known decision decides =>
            obtain rfl := Option.some.inj (stored.symm.trans decision)
            exact decides
      exact (Poll.outcome?_ofVotes_iff.mpr decides).symm

-----------------------------------------------------------------------------------------
-- Arrivals
-----------------------------------------------------------------------------------------

/-- A history in which the votes for a round arrive at a book that has none of them. The round is
reached from the start, or at some moment is entered and evaluated.
-/
structure Arrival (roster : Roster) (round : Round) where
  book : PollBook
  history : List Action
  untracked : book.poll? round = none
  orderly : Orderly roster round book history
  entered
    : ¬ book.current < round
      ∨ ∃ before after,
          history = before ++ .advance round :: .evaluate round ⟨roster, none⟩ :: after

namespace Arrival

variable {roster : Roster} {round : Round}

def votes (arrival : Arrival roster round) : List Vote :=
  votesFor round arrival.history

def result (arrival : Arrival roster round) : Option (OutcomeKind × Option Candidate) :=
  ((arrival.book.after arrival.history).decision round).map Outcome.decision

theorem follows (arrival : Arrival roster round)
    : Follows roster round arrival.votes (arrival.book.after arrival.history) :=
  (follows_of_untracked roster arrival.untracked).run arrival.orderly

/-- In the end the round is settled, by the evaluation on entry and all that came after. -/
theorem settled (arrival : Arrival roster round)
    : Settled roster round arrival.votes (arrival.book.after arrival.history) := by
  have start := follows_of_untracked roster arrival.untracked
  rcases arrival.entered with reached | ⟨before, after, parts⟩
  · exact (settled_of_untracked roster reached).run start arrival.orderly
  · have orderly := arrival.orderly
    rw [parts] at orderly
    obtain ⟨early, entry⟩ := orderly.of_append
    obtain ⟨admits, consults, admits', consults', late⟩ := entry
    have entering := (start.run early).step admits consults admits'
    have reached := not_current_lt_advance (arrival.book.after before) round
    have evaluated := entering.settled_evaluate reached
    have finished := evaluated.run entering.evaluate late
    simpa [votes, parts, votesFor_append, after_append, Action.votesFor, Action.apply]
      using finished

/-- The votes that arrived decide as if they had come at once. -/
theorem result_eq (arrival : Arrival roster round)
    : arrival.result
      = ((Poll.ofVotes round arrival.votes).outcome? ⟨roster, none⟩).map Outcome.decision :=
  arrival.settled.decision_eq arrival.follows

/-- Neither order nor batches nor lateness matter: two arrivals of the same votes, no peer voting
for two candidates, end in the same decision, which is the one that the votes imply at once.
-/
theorem result_of_perm (left right : Arrival roster round) {votes : List Vote}
    (steady : Poll.Steady roster round votes) (left_votes : left.votes.Perm votes)
    (right_votes : right.votes.Perm votes)
    : left.result = right.result
      ∧ left.result
        = ((Poll.ofVotes round votes).outcome? ⟨roster, none⟩).map Outcome.decision := by
  have from_left := left.result_eq.trans (steady.decision_perm left_votes)
  have from_right := right.result_eq.trans (steady.decision_perm right_votes)
  exact ⟨from_left.trans from_right.symm, from_left⟩

/-- Three votes for one block, one of them twice, and a stranger's vote for another one. -/
def someVotes : List Vote :=
  [.numbered 1 (.numbered 1), .numbered 9 (.numbered 2), .numbered 2 (.numbered 1),
    .numbered 1 (.numbered 1), .numbered 3 (.numbered 1)]

/-- The votes arrive in two batches, the first of them ahead of the round. -/
def early : Arrival .four ⟨5, 0⟩ where
  book := .empty 10
  history :=
    [.insert ⟨5, 0⟩ (someVotes.take 4) none, .advance ⟨5, 0⟩, .evaluate ⟨5, 0⟩ ⟨.four, none⟩,
      .insert ⟨5, 0⟩ (someVotes.drop 4) (some ⟨.four, none⟩)]
  untracked := by decide
  orderly :=
    ⟨by decide, fun _ => .inl (by decide), by decide, trivial, by decide, fun _ => rfl, by decide,
      fun _ => .inr rfl, by change Admits _ _; decide⟩
  entered := .inr ⟨[_], [_], rfl⟩

/-- The votes arrive in one batch in the opposite order, during the round. -/
def reversed : Arrival .four ⟨5, 0⟩ where
  book := ⟨10, ⟨5, 0⟩, []⟩
  history := [.insert ⟨5, 0⟩ someVotes.reverse (some ⟨.four, none⟩)]
  untracked := by decide
  orderly := ⟨by decide, fun _ => .inr rfl, by change Admits _ _; decide⟩
  entered := .inl (by decide)

/-- Both ways end in a commit of the block. -/
theorem result_early_eq_reversed
    : early.result = reversed.result
      ∧ early.result
        = ((Poll.ofVotes ⟨5, 0⟩ someVotes).outcome? ⟨.four, none⟩).map Outcome.decision
      ∧ early.result = some (.commit, some (.numbered 1)) := by
  have steady : Poll.Steady .four ⟨5, 0⟩ someVotes := by decide
  obtain ⟨same, at_once⟩ := result_of_perm early reversed steady (by decide) (by decide)
  exact ⟨same, at_once, by decide⟩

end Arrival

end PollBook

end Quorum
