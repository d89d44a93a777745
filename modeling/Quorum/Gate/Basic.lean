import Quorum.Counters
import Quorum.PollBook

/-! The state of a gate, what it does to its surroundings, and the activities that work on it. -/

namespace Quorum

/-- Signs this node's votes and checks the votes of others. -/
structure Credentials where
  sign : Candidate → Except Fault Vote
  accepts : Vote → Bool

/-- Credentials with a keypair, or for checking only. -/
def Credentials.ofKeypair (keypair : Option Keypair) : Credentials where
  sign candidate :=
    match keypair with
    | none => .error .missingKey
    | some keypair => .ok ⟨candidate, keypair.sign candidate.signedBytes, keypair.publicKey⟩
  accepts vote :=
    match vote.key.verify vote.candidate.signedBytes vote.signature with
    | .ok () => true
    | .error _ => false

/-- Where a gate stands. -/
inductive Phase where
  | idle
  /-- The round is open. -/
  | voting (round : Round)
  /-- Votes of others arrived for the open round. -/
  | deciding (round : Round)
  /-- The round is decided. -/
  | frozen (round : Round)
  | stopped
  deriving DecidableEq

/-- The own vote of a round, to be sent again to some peers. -/
structure Rebroadcast where
  round : Round
  vote : Vote
  peers : List Peer

/-- What a gate does to its surroundings. -/
inductive Effect where
  /-- Sends a bundle to a peer. -/
  | send (peer : Peer) (votes : List Vote)
  /-- Puts an outcome on the stream of outcomes. -/
  | surface (outcome : Outcome)
  /-- Hands a block to the store of blocks. -/
  | commit (candidate : Candidate) (round : Round)
  /-- Increases a counter. -/
  | count (counter : Counter) (amount : Nat)
  /-- Asks for the own vote to be sent again later. -/
  | schedule (rebroadcast : Rebroadcast)

structure Gate where
  phase : Phase
  stopped : Bool
  /-- The latest round that was entered, and who may decide it. -/
  round : Round
  electorate : Option Electorate
  /-- The own votes of the rounds in the window. -/
  ownVotes : List (Round × Vote)
  book : PollBook

namespace Gate

def initial (window : UInt64) : Gate where
  phase := .idle
  stopped := false
  round := .zero
  electorate := none
  ownVotes := []
  book := .empty window

/-- What does not change during the life of a gate. -/
structure Settings where
  credentials : Credentials
  /-- How often the own vote is sent again. -/
  rebroadcasts : Nat

/-- Work on a gate in steps. Each step is done at once; the work of others may come in between
two steps.
-/
inductive Activity (α : Type) : Type 1 where
  | done (value : α)
  | step {β : Type} (act : Gate → β × Gate × List Effect) (next : β → Activity α)

namespace Activity

def bind {α β : Type} : Activity α → (α → Activity β) → Activity β
  | done value, continuation => continuation value
  | step act next, continuation => step act fun result => (next result).bind continuation

instance : Monad Activity where
  pure := done
  bind := bind

/-- Does all the work without a break. -/
def run {α : Type} : Activity α → Gate → α × Gate × List Effect
  | done value, gate => (value, gate, [])
  | step act next, gate =>
      let (result, gate, effects) := act gate
      let (value, gate, later) := (next result).run gate
      (value, gate, effects ++ later)

/-- A step that only looks. -/
def observe {α : Type} (view : Gate → α) : Activity α :=
  step (fun gate => (view gate, gate, [])) done

/-- A step that only changes the gate. -/
def modify (change : Gate → Gate) : Activity Unit :=
  step (fun gate => ((), change gate, [])) done

/-- A step of any kind. -/
def perform {α : Type} (act : Gate → α × Gate × List Effect) : Activity α :=
  step act done

/-- A step that only acts on the surroundings. -/
def emit (effects : List Effect) : Activity Unit :=
  step (fun gate => ((), gate, effects)) done

@[simp] theorem run_pure {α : Type} (value : α) (gate : Gate)
    : run (pure value) gate = (value, gate, []) := rfl

@[simp] theorem run_bind {α β : Type} (activity : Activity α) (continuation : α → Activity β)
    (gate : Gate)
    : run (activity >>= continuation) gate =
        let (value, gate, effects) := activity.run gate
        let (result, gate, later) := (continuation value).run gate
        (result, gate, effects ++ later) := by
  change run (activity.bind continuation) gate = _
  induction activity generalizing gate with
  | done value => rfl
  | step act next ih => simp [bind, run, ih]

@[simp] theorem run_observe {α : Type} (view : Gate → α) (gate : Gate)
    : run (observe view) gate = (view gate, gate, []) := rfl

@[simp] theorem run_modify (change : Gate → Gate) (gate : Gate)
    : run (modify change) gate = ((), change gate, []) := rfl

@[simp] theorem run_perform {α : Type} (act : Gate → α × Gate × List Effect) (gate : Gate)
    : run (perform act) gate = act gate := by
  simp [perform, run]

@[simp] theorem run_emit (effects : List Effect) (gate : Gate)
    : run (emit effects) gate = ((), gate, effects) := by
  simp [emit, run]

end Activity

end Gate

end Quorum
