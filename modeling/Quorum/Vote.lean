import Quorum.Signing.Key

/-! Candidates for the decision of a round, the votes for them, and what votes lead to. -/

namespace Quorum

/-- A candidate for a round's decision. With both hashes empty it stands for no block. -/
structure Candidate where
  round : Round
  proposal : Bytes
  block : Bytes
  deriving DecidableEq

namespace Candidate

def empty (round : Round) : Candidate :=
  ⟨round, [], []⟩

def IsEmpty (candidate : Candidate) : Prop :=
  candidate.proposal = [] ∧ candidate.block = []

instance (candidate : Candidate) : Decidable candidate.IsEmpty :=
  inferInstanceAs (Decidable (_ ∧ _))

/-- The bytes that a vote signs: the round, then each hash after its length. -/
def signedBytes (candidate : Candidate) : Bytes :=
  Bytes.bigEndian 8 candidate.round.height.toNat
    ++ Bytes.bigEndian 8 candidate.round.counter.toNat
    ++ Bytes.bigEndian 8 candidate.proposal.length ++ candidate.proposal
    ++ Bytes.bigEndian 8 candidate.block.length ++ candidate.block

/-- The round and the hashes, or that there are none. -/
def description (candidate : Candidate) : String :=
  let fields :=
    if candidate.IsEmpty then "empty"
    else s!"proposal: {Hex.encode candidate.proposal}, block: {Hex.encode candidate.block}"
  "YacHash\x7bround: " ++ candidate.round.text ++ ", " ++ fields ++ "\x7d"

end Candidate

/-- A key's signed support for a candidate. -/
structure Vote where
  candidate : Candidate
  signature : Signature
  key : PublicKey
  deriving DecidableEq

def Vote.round (vote : Vote) : Round :=
  vote.candidate.round

inductive OutcomeKind where
  /-- A candidate with a block reached a supermajority. -/
  | commit
  /-- No candidate can reach a supermajority any more. -/
  | reject
  /-- The empty candidate reached a supermajority. -/
  | nothing
  /-- Votes arrived for a round ahead of the current one. -/
  | future
  deriving DecidableEq

/-- The roster that a decision was reached under. -/
inductive Side where
  | primary
  | alternative
  deriving DecidableEq

structure Outcome where
  kind : OutcomeKind
  round : Round
  /-- The winner of a commit. -/
  winner : Option Candidate
  /-- The votes that the outcome rests on. -/
  votes : List Vote
  side : Side
  deriving DecidableEq

/-- The outcome ends its round. -/
def Outcome.Terminal (outcome : Outcome) : Prop :=
  outcome.kind ≠ .future

instance (outcome : Outcome) : Decidable outcome.Terminal :=
  inferInstanceAs (Decidable (_ ≠ _))

/-- The round after an outcome. -/
def Outcome.nextRound (outcome : Outcome) : Except Overflow Round :=
  match outcome.kind with
  | .commit | .nothing => outcome.round.nextHeight
  | .reject => outcome.round.nextCounter
  | .future => .ok outcome.round

/-- Two votes of one key for different candidates of one round. -/
structure Equivocation where
  first : Vote
  second : Vote
  deriving DecidableEq

def Equivocation.offender (equivocation : Equivocation) : PublicKey :=
  equivocation.first.key

end Quorum
