import Quorum.Roster

/-! The configuration of a node. A valid one names its schemes, and lists peers with distinct
addresses and keys of 32 bytes.
-/

namespace Quorum

/-- Where a node listens, and what it signs with. -/
structure NodeOptions where
  bind : String
  keyFile : String
  /-- The name of the scheme of the node's key, and of the peers' keys by default. -/
  algorithm : String
  deriving DecidableEq

def NodeOptions.default : NodeOptions where
  bind := "0.0.0.0:10001"
  keyFile := "node.key"
  algorithm := Algorithm.ed25519Sha256.name

/-- Times in milliseconds, and limits. -/
structure ConsensusOptions where
  /-- The time between two rebroadcasts of the own vote. -/
  voteDelay : UInt64
  rebroadcasts : UInt32
  /-- Heights kept behind the current round. -/
  window : UInt64
  sendTimeout : UInt64
  /-- The pause after a decided round. -/
  roundDelay : UInt64
  deriving DecidableEq

def ConsensusOptions.default : ConsensusOptions where
  voteDelay := 1000
  rebroadcasts := 5
  window := 10
  sendTimeout := 3000
  roundDelay := 500

/-- A peer as a configuration names it; its scheme is the node's unless it names another. -/
structure PeerEntry where
  address : String
  key : Bytes
  algorithm : Option String
  deriving DecidableEq

structure LoggingOptions where
  filter : String
  deriving DecidableEq

def LoggingOptions.default : LoggingOptions where
  filter := "info"

structure Config where
  node : NodeOptions
  consensus : ConsensusOptions
  peers : List PeerEntry
  logging : LoggingOptions
  deriving DecidableEq

namespace Config

def default : Config where
  node := .default
  consensus := .default
  peers := []
  logging := .default

/-- The scheme with a name. -/
def schemeNamed (name : String) : Except Fault Algorithm :=
  match Algorithm.ofName? name with
  | some algorithm => .ok algorithm
  | none => .error (.config (.algorithm name))

/-- The scheme of the node's key. -/
def algorithm (config : Config) : Except Fault Algorithm :=
  schemeNamed config.node.algorithm

/-- A peer, if its scheme is known. -/
def toPeer (common : Algorithm) (entry : PeerEntry) : Except Fault Peer := do
  let algorithm ←
    match entry.algorithm with
    | some name => schemeNamed name
    | none => .ok common
  return ⟨entry.address, ⟨algorithm, entry.key⟩⟩

/-- The peers in the order of the configuration. -/
def peerList (config : Config) : Except Fault (List Peer) := do
  let algorithm ← config.algorithm
  config.peers.mapM (toPeer algorithm)

/-- Checks each entry's address against those before it, then the length of its key. -/
def checkEntries (seen : List String) : List PeerEntry → Except Fault Unit
  | [] => .ok ()
  | entry :: rest =>
      if entry.address ∈ seen then .error (.config (.repeatedAddress entry.address))
      else if entry.key.length ≠ 32 then
        .error (.config (.keyLength entry.address entry.key.length))
      else checkEntries (entry.address :: seen) rest

/-- Accepts a valid configuration, and otherwise says what is wrong first. -/
def validate (config : Config) : Except Fault Unit := do
  if config.peers = [] then
    throw (.config .noPeers)
  let _ ← config.algorithm
  checkEntries [] config.peers
  let _ ← config.peerList

end Config

end Quorum
