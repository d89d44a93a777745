import Quorum.Poll

/-! The polls of the rounds within a window of heights round the current round. -/

namespace Quorum

structure PollBook where
  /-- Heights kept behind the current one, and admitted ahead of it. -/
  window : UInt64
  current : Round
  /-- Ascending by round, one for each. -/
  polls : List Poll

/-- What an insertion did: the fate of its votes and the transition that it caused. -/
structure Receipt where
  intake : Intake
  outcome : Option Outcome
  deriving DecidableEq

/-- A decision, and whether it was reached only now. -/
structure Ruling where
  outcome : Outcome
  fresh : Bool
  deriving DecidableEq

namespace PollBook

def defaultWindow : UInt64 := 10

def empty (window : UInt64) : PollBook :=
  ⟨window, .zero, []⟩

def poll? (book : PollBook) (round : Round) : Option Poll :=
  book.polls.find? (·.round = round)

/-- The poll of a round, which is empty where the round is not tracked. -/
def poll (book : PollBook) (round : Round) : Poll :=
  (book.poll? round).getD (.empty round)

/-- Stores a poll in place of the one of its round. -/
def store (poll : Poll) : List Poll → List Poll
  | [] => [poll]
  | head :: rest =>
      if poll.round < head.round then poll :: head :: rest
      else if poll.round = head.round then poll :: rest
      else head :: store poll rest

def put (book : PollBook) (poll : Poll) : PollBook :=
  { book with polls := store poll book.polls }

/-- The round lies behind the window. -/
def Expired (book : PollBook) (round : Round) : Prop :=
  Word.saturatingAdd round.height book.window < book.current.height

instance (book : PollBook) (round : Round) : Decidable (book.Expired round) :=
  inferInstanceAs (Decidable (_ < _))

/-- The round lies ahead of the window. -/
def Distant (book : PollBook) (round : Round) : Prop :=
  Word.saturatingAdd book.current.height book.window < round.height

instance (book : PollBook) (round : Round) : Decidable (book.Distant round) :=
  inferInstanceAs (Decidable (_ < _))

/-- The round is decided, or too far behind to be voted in. -/
def Closed (book : PollBook) (round : Round) : Prop :=
  book.Expired round ∨ (book.poll round).Frozen

instance (book : PollBook) (round : Round) : Decidable (book.Closed round) :=
  inferInstanceAs (Decidable (_ ∨ _))

def decision (book : PollBook) (round : Round) : Option Outcome :=
  (book.poll round).decision

/-- Takes in votes for a round. The current and earlier rounds are decided as soon as their
votes suffice; one ahead is reported with its first votes, and its votes are kept. Without an
electorate votes are kept only.
-/
def insert (book : PollBook) (round : Round) (votes : List Vote)
    (electorate : Option Electorate)
    : PollBook × Receipt :=
  if book.Expired round ∨ book.Distant round ∨ (book.poll round).Frozen then
    (book, ⟨.none, none⟩)
  else
    let (poll, intake) := (book.poll round).insert votes
    if book.current < round then
      let (reported, first) := poll.reportFuture
      if 0 < intake.accepted ∧ first then
        (book.put reported, ⟨intake, some ⟨.future, round, none, poll.votes, .primary⟩⟩)
      else
        (book.put poll, ⟨intake, none⟩)
    else
      match electorate.bind poll.outcome? with
      | none => (book.put poll, ⟨intake, none⟩)
      | some outcome => (book.put (poll.freeze outcome), ⟨intake, some outcome⟩)

/-- Decides a round by the votes already held, if they suffice. -/
def evaluate (book : PollBook) (round : Round) (electorate : Electorate)
    : PollBook × Option Ruling :=
  match book.poll? round with
  | none => (book, none)
  | some poll =>
      match poll.decision, poll.outcome? electorate with
      | some outcome, _ => (book, some ⟨outcome, false⟩)
      | none, some outcome => (book.put (poll.freeze outcome), some ⟨outcome, true⟩)
      | none, none => (book, none)

/-- Moves on to a later round and drops the polls that fall out of the window. -/
def advance (book : PollBook) (round : Round) : PollBook :=
  if round ≤ book.current then book
  else
    let floor := Word.saturatingSub round.height book.window
    { book with
      current := round
      polls := book.polls.filter fun poll => decide (floor ≤ poll.round.height) }

def frozenRounds (book : PollBook) : List Round :=
  (book.polls.filter fun poll => decide poll.Frozen).map Poll.round

/-- The number of rounds with polls. -/
def tracked (book : PollBook) : Nat :=
  book.polls.length

end PollBook

end Quorum
