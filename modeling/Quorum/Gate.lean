import Quorum.Bundle
import Quorum.Gate.Basic

/-! The gate: it casts this node's vote, takes in the bundles of other nodes, and surfaces the
outcomes of rounds. Once stopped it has no effects any more, whatever was under way.
-/

namespace Quorum.Gate

open Activity

/-- Changes the phase unless the gate is stopped. -/
def enter (phase : Phase) (gate : Gate) : Gate :=
  if gate.phase = .stopped then gate else { gate with phase }

/-- Takes over the electorate of a round that is not behind the latest one. -/
def adopt (round : Round) (electorate : Electorate) (gate : Gate) : Gate :=
  if gate.round ≤ round then { gate with round, electorate := some electorate } else gate

/-- Moves the polls on to a round. -/
def advance (round : Round) (gate : Gate) : Gate :=
  { gate with book := gate.book.advance round }

/-- Drops the own votes that fall out of the window of a round. -/
def forget (round : Round) (gate : Gate) : Gate :=
  let floor := Word.saturatingSub round.height gate.book.window
  { gate with ownVotes := gate.ownVotes.filter fun entry => decide (floor ≤ entry.1.height) }

/-- Keeps the own vote of a round, unless there is one already. -/
def keepVote (round : Round) (vote : Vote) (gate : Gate) : Bool × Gate × List Effect :=
  if ∃ entry ∈ gate.ownVotes, entry.1 = round then (false, gate, [])
  else (true, { gate with ownVotes := gate.ownVotes ++ [(round, vote)] }, [])

def outcomeCounter : OutcomeKind → Counter
  | .commit => .commits
  | .reject => .rejects
  | .nothing => .nothings
  | .future => .futures

/-- Takes note of an outcome that is seen for the first time. -/
def record (outcome : Outcome) (gate : Gate) : Gate × List Effect :=
  let commits :=
    match outcome.kind, outcome.winner with
    | .commit, some winner => [Effect.commit winner outcome.round]
    | _, _ => []
  (if outcome.Terminal then gate.enter (.frozen outcome.round) else gate,
    .count (outcomeCounter outcome.kind) 1 :: commits)

/-- Records an outcome and surfaces it, unless the gate is stopped. -/
def surface (outcome : Outcome) (gate : Gate) : Unit × Gate × List Effect :=
  if gate.stopped then ((), gate, [])
  else
    let (gate, effects) := gate.record outcome
    ((), gate, effects ++ [.surface outcome])

/-- Sends a bundle to some peers, unless the gate is stopped. -/
def send (peers : List Peer) (votes : List Vote) : Activity Unit :=
  perform fun gate => ((), gate, if gate.stopped then [] else peers.map (.send · votes))

/-- The counts of the votes that changed nothing. -/
def intakeCounts (intake : Intake) : List Effect :=
  (if 0 < intake.duplicates then [.count .duplicateVotes intake.duplicates] else [])
    ++ (if 0 < intake.equivocations then [.count .equivocations intake.equivocations] else [])

/-- Takes votes into the polls. -/
def poll (round : Round) (votes : List Vote) (electorate : Electorate)
    : Activity (Option Outcome) :=
  perform fun gate =>
    let (book, receipt) := gate.book.insert round votes (some electorate)
    (receipt.outcome, { gate with book }, intakeCounts receipt.intake)

/-- Surfaces an outcome, unless it ends a round that is no longer current. -/
def report (outcome : Outcome) : Activity Unit := do
  let current ← observe (·.book.current)
  if outcome.Terminal ∧ outcome.round ≠ current then
    return
  else
    perform (surface outcome)

/-- Casts a vote that was signed for the candidate's round, unless there is one already. -/
def cast (settings : Settings) (round : Round) (vote : Vote) (electorate : Electorate)
    : Activity (Except Fault Unit) := do
  unless ← perform (keepVote round vote) do
    return .error (.alreadyVoted round)
  modify (advance round)
  modify (forget round)
  modify (adopt round electorate)
  modify (enter (.voting round))
  if let some outcome ← poll round [vote] electorate then
    report outcome
  let peers := electorate.peers.filter fun peer => decide (peer.key ≠ vote.key)
  send peers [vote]
  if 0 < settings.rebroadcasts ∧ peers ≠ [] then
    emit [.schedule ⟨round, vote, peers⟩]
  return .ok ()

/-- Votes for a candidate under an electorate, in a round that is not behind and not closed. -/
def vote (settings : Settings) (candidate : Candidate) (electorate : Electorate)
    : Activity (Except Fault Unit) := do
  let round := candidate.round
  if ← observe (·.stopped) then
    return .error .stopped
  if ← observe fun gate => decide (round < gate.book.current) then
    return .error (.staleRound round)
  if ← observe fun gate => decide (gate.book.Closed round) then
    return .error (.roundFrozen round)
  match settings.credentials.sign candidate with
  | .error fault => return .error fault
  | .ok vote => cast settings round vote electorate

/-- Records an outcome that a round switch found, unless the gate is stopped. -/
def recordSwitch (outcome : Outcome) (gate : Gate) : Bool × Gate × List Effect :=
  if gate.stopped then (false, gate, []) else (true, gate.record outcome)

/-- Enters a round under an electorate, and gives its outcome if it is decided. -/
def enterRound (round : Round) (electorate : Electorate)
    : Activity (Except Fault (Option Outcome)) := do
  modify (advance round)
  modify (forget round)
  modify (adopt round electorate)
  let ruling ← perform fun gate =>
    let (book, ruling) := gate.book.evaluate round electorate
    (ruling, { gate with book }, [])
  match ruling with
  | some ⟨outcome, true⟩ =>
      if ← perform (recordSwitch outcome) then
        return .ok (some outcome)
      else
        return .error .stopped
  | some ⟨outcome, false⟩ =>
      modify (enter (.frozen round))
      return .ok (some outcome)
  | none =>
      modify (enter (.voting round))
      return .ok none

/-- Moves to a round with the given peers. Gives its outcome if it is decided, also if the votes
that are already held decide it.
-/
def switch (round : Round) (peers : List Peer) : Activity (Except Fault (Option Outcome)) := do
  if ← observe (·.stopped) then
    return .error .stopped
  match Roster.ofPeers peers with
  | .error fault => return .error fault
  | .ok roster => enterRound round ⟨roster, none⟩

/-- The voters of a bundle that the decision does not count, as peers of an electorate. -/
def laggards (decision : Outcome) (electorate : Electorate) (votes : List Vote) : List Peer :=
  votes.foldl
    (fun peers vote =>
      if ∃ counted ∈ decision.votes, counted.key = vote.key then peers
      else
        match electorate.peer? vote.key with
        | some peer => if peer ∈ peers then peers else peers ++ [peer]
        | none => peers)
    []

/-- Answers votes of a decided round with the decision. -/
def answer (round : Round) (votes : List Vote) : Activity Unit := do
  let some decision ← observe (·.book.decision round) | return
  let some electorate ← observe (·.electorate) | return
  let peers := laggards decision electorate votes
  unless peers = [] do
    send peers decision.votes

/-- Votes of others arrived for the open round. -/
def startDeciding (round : Round) (gate : Gate) : Gate :=
  if gate.phase = .voting round ∨ gate.phase = .idle then { gate with phase := .deciding round }
  else gate

/-- Takes in votes of a round that is not closed, as far as they are by known peers. -/
def collect (round : Round) (votes : List Vote) : Activity Unit := do
  let (current, known) ← observe fun gate => (gate.round, gate.electorate)
  let some electorate := known | return
  let admitted := votes.filter fun vote => decide (electorate.Has vote.key)
  if admitted ≠ [] then
    if round = current then
      modify (startDeciding round)
    if let some outcome ← poll round admitted electorate then
      report outcome

/-- Takes in a bundle. One that is not sound, or holds a vote that is not accepted, is dropped as
a whole.
-/
def receive (settings : Settings) (votes : List Vote) : Activity Unit := do
  if ← observe (·.stopped) then
    return
  match Bundle.round votes with
  | .error _ => emit [.count .bundlesDropped 1]
  | .ok round =>
      if ¬ votes.all settings.credentials.accepts then
        emit [.count .bundlesDropped 1]
      else if ← observe fun gate => decide (gate.book.Closed round) then
        answer round votes
      else
        collect round votes

/-- The counts of a bundle from the network. -/
def arrivalCounts (votes : List Vote) : List Effect :=
  .count .bundlesReceived 1
    :: if (Bundle.round votes).isOk then [] else [.count .bundlesDropped 1]

/-- Hands a bundle from the network to the gate, if it is sound. -/
def deliver (settings : Settings) (votes : List Vote) : Activity Bool := do
  emit (arrivalCounts votes)
  if (Bundle.round votes).isOk then
    receive settings votes
    return true
  else
    return false

/-- Stops the gate for good. -/
def stop : Activity Unit :=
  modify fun gate => if gate.stopped then gate else { gate with stopped := true, phase := .stopped }

/-- Sends the own vote again while its round is current and open. Otherwise says that there is no
need to try again.
-/
def rebroadcast (task : Rebroadcast) : Activity Bool := do
  if ← observe (·.stopped) then
    return false
  if ← observe fun gate => decide (gate.book.Closed task.round) then
    return false
  if ← observe fun gate => decide (gate.book.current ≠ task.round) then
    return false
  send task.peers [task.vote]
  return true

end Quorum.Gate
