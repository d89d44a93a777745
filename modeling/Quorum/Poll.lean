import Quorum.Roster

/-! The poll of one round: its votes in piles by candidate, the first vote of each key, and the
evidence of keys that voted for several candidates. Its outcome under an electorate is a
function of the piles.
-/

namespace Quorum

/-- The votes for one candidate, in order of arrival. -/
structure Pile where
  candidate : Candidate
  votes : List Vote
  deriving DecidableEq

namespace Pile

def empty (candidate : Candidate) : Pile :=
  ⟨candidate, []⟩

def Has (pile : Pile) (key : PublicKey) : Prop :=
  ∃ vote ∈ pile.votes, vote.key = key

instance (pile : Pile) (key : PublicKey) : Decidable (pile.Has key) :=
  inferInstanceAs (Decidable (∃ vote ∈ pile.votes, vote.key = key))

/-- The vote is for the pile's candidate, by a key that has none there. -/
def Takes (pile : Pile) (vote : Vote) : Prop :=
  vote.candidate = pile.candidate ∧ ¬ pile.Has vote.key

instance (pile : Pile) (vote : Vote) : Decidable (pile.Takes vote) :=
  inferInstanceAs (Decidable (_ ∧ _))

/-- Adds a vote that the pile takes; others change nothing. -/
def insert (pile : Pile) (vote : Vote) : Pile :=
  if pile.Takes vote then { pile with votes := pile.votes ++ [vote] } else pile

/-- The votes by peers of a roster. -/
def votesIn (pile : Pile) (roster : Roster) : List Vote :=
  pile.votes.filter fun vote => decide (roster.Has vote.key)

def countIn (pile : Pile) (roster : Roster) : Nat :=
  pile.votes.countP fun vote => decide (roster.Has vote.key)

end Pile

/-- What the votes of a poll say under one roster. -/
inductive Verdict where
  | decided (kind : OutcomeKind) (candidate : Candidate) (votes : List Vote)
  | rejected (votes : List Vote)
  | undecided

/-- What became of the votes of a batch. -/
structure Intake where
  accepted : Nat
  duplicates : Nat
  equivocations : Nat
  /-- Votes for candidates of another round. -/
  foreign : Nat
  deriving DecidableEq

namespace Intake

def none : Intake :=
  ⟨0, 0, 0, 0⟩

def accept (intake : Intake) : Intake :=
  { intake with accepted := intake.accepted + 1 }

def duplicate (intake : Intake) : Intake :=
  { intake with duplicates := intake.duplicates + 1 }

def equivocate (intake : Intake) : Intake :=
  { intake with equivocations := intake.equivocations + 1 }

def misplace (intake : Intake) : Intake :=
  { intake with foreign := intake.foreign + 1 }

end Intake

structure Poll where
  round : Round
  /-- One pile for each candidate, in order of their first votes. -/
  piles : List Pile
  /-- The first vote of each key, which alone counts. -/
  voters : List Vote
  evidence : List Equivocation
  decision : Option Outcome
  /-- Votes were reported while the round was ahead. -/
  futureReported : Bool

namespace Poll

def empty (round : Round) : Poll :=
  ⟨round, [], [], [], none, false⟩

/-- The round is decided. -/
def Frozen (poll : Poll) : Prop :=
  poll.decision.isSome

instance (poll : Poll) : Decidable poll.Frozen :=
  inferInstanceAs (Decidable (_ = true))

/-- The counted votes, pile after pile. -/
def votes (poll : Poll) : List Vote :=
  poll.piles.flatMap Pile.votes

def firstVote? (poll : Poll) (key : PublicKey) : Option Vote :=
  poll.voters.find? (·.key = key)

/-- Puts a vote on the pile of its candidate, which is a new one for its first vote. -/
def pileUp (vote : Vote) : List Pile → List Pile
  | [] => [(Pile.empty vote.candidate).insert vote]
  | pile :: rest =>
      if pile.candidate = vote.candidate then pile.insert vote :: rest
      else pile :: pileUp vote rest

/-- Takes in one vote. The first vote of a key counts; one for another candidate is evidence,
once.
-/
def receive (poll : Poll) (intake : Intake) (vote : Vote) : Poll × Intake :=
  if vote.round ≠ poll.round then (poll, intake.misplace)
  else
    match poll.firstVote? vote.key with
    | none =>
        ({ poll with voters := poll.voters ++ [vote], piles := pileUp vote poll.piles },
          intake.accept)
    | some first =>
        if first.candidate = vote.candidate ∨ ∃ known ∈ poll.evidence, known.second = vote then
          (poll, intake.duplicate)
        else
          ({ poll with evidence := poll.evidence ++ [⟨first, vote⟩] }, intake.equivocate)

/-- Takes in a batch of votes in order. -/
def insert (poll : Poll) (votes : List Vote) : Poll × Intake :=
  votes.foldl (fun state vote => state.1.receive state.2 vote) (poll, .none)

/-- The pile that decides under a roster: one with a block, or else the one without. -/
def winner? (poll : Poll) (roster : Roster) : Option Pile :=
  let wins (pile : Pile) := decide (Supermajority.Reached (pile.countIn roster) roster.size)
  poll.piles.find? (fun pile => decide (¬ pile.candidate.IsEmpty) && wins pile)
    <|> poll.piles.find? (fun pile => decide pile.candidate.IsEmpty && wins pile)

def verdict (poll : Poll) (roster : Roster) : Verdict :=
  match poll.winner? roster with
  | some pile =>
      .decided (if pile.candidate.IsEmpty then .nothing else .commit) pile.candidate
        (pile.votesIn roster)
  | none =>
      let counts := poll.piles.map (·.countIn roster)
      if Supermajority.OutOfReach (counts.max?.getD 0) counts.sum roster.size then
        .rejected (poll.piles.flatMap (·.votesIn roster))
      else .undecided

/-- The outcome that the votes imply. A decision under either roster stands, the primary's
first; a rejection needs every roster.
-/
def outcome? (poll : Poll) (electorate : Electorate) : Option Outcome :=
  let decided (side : Side) (kind : OutcomeKind) (candidate : Candidate) (votes : List Vote) :=
    some
      { kind
        round := poll.round
        winner := if kind = .commit then some candidate else none
        votes
        side : Outcome }
  match poll.verdict electorate.primary, electorate.alternative.map poll.verdict with
  | .decided kind candidate votes, _ => decided .primary kind candidate votes
  | _, some (.decided kind candidate votes) => decided .alternative kind candidate votes
  | .rejected votes, none | .rejected votes, some (.rejected _) =>
      some { kind := .reject, round := poll.round, winner := none, votes, side := .primary }
  | _, _ => none

/-- Fixes the decision; a later one changes nothing. -/
def freeze (poll : Poll) (outcome : Outcome) : Poll :=
  { poll with decision := poll.decision <|> some outcome }

/-- Notes that votes were reported ahead of the round, and whether this is the first time. -/
def reportFuture (poll : Poll) : Poll × Bool :=
  ({ poll with futureReported := true }, !poll.futureReported)

end Poll

end Quorum
