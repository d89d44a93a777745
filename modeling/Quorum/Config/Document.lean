import Quorum.Config
import Quorum.Toml.Document
import Quorum.Toml.Record

/-! Configurations as TOML documents. Every section may be missing, and so may all fields but
the address and the key of a peer.
-/

namespace Quorum.Config

open Toml

def nodeShape : Shape NodeOptions where
  name := "NodeSection"
  fields :=
    [.of "bind" .text fun options bind => { options with bind },
      .of "key_file" .text fun options keyFile => { options with keyFile },
      .of "algorithm" .text fun options algorithm => { options with algorithm }]

def consensusShape : Shape ConsensusOptions where
  name := "ConsensusSection"
  fields :=
    [.of "vote_delay_ms" .word64 fun options voteDelay => { options with voteDelay },
      .of "max_rebroadcasts" .word32 fun options rebroadcasts => { options with rebroadcasts },
      .of "storage_window" .word64 fun options window => { options with window },
      .of "send_timeout_ms" .word64 fun options sendTimeout => { options with sendTimeout },
      .of "round_delay_ms" .word64 fun options roundDelay => { options with roundDelay }]

/-- The fields of a peer that were read so far. -/
structure PeerDraft where
  address : Option String
  key : Option Bytes
  algorithm : Option String

def peerShape : Shape PeerDraft where
  name := "PeerEntry"
  fields :=
    [.of "address" .text fun draft address => { draft with address },
      .of "public_key" .hex fun draft key => { draft with key },
      .of "algorithm" .text fun draft algorithm => { draft with algorithm }]

def readPeer : Reader PeerEntry := fun value => do
  let draft ← peerShape.read ⟨none, none, none⟩ value
  let address ← peerShape.require "address" value draft.address
  let key ← peerShape.require "public_key" value draft.key
  return ⟨address, key, draft.algorithm⟩

def loggingShape : Shape LoggingOptions where
  name := "LoggingSection"
  fields := [.of "filter" .text fun options filter => { options with filter }]

def shape : Shape Config where
  name := "NodeConfig"
  fields :=
    [.of "node" (nodeShape.read .default) fun config node => { config with node },
      .of "consensus" (consensusShape.read .default) fun config consensus =>
        { config with consensus },
      .of "peers" (.list readPeer) fun config peers => { config with peers },
      .of "logging" (loggingShape.read .default) fun config logging => { config with logging }]

/-- The configuration that a document holds, valid or not. What has no place of its own is
reported at the table around it, and the document itself has a place.
-/
def read (document : String) : Except Report Config := do
  let table ← Toml.parse document
  match shape.read .default (.table table) with
  | .ok config => return config
  | .error misfit => throw ⟨document, misfit.span.getD ⟨0, 0⟩, misfit.defect⟩

/-- The valid configuration that a document holds. -/
def ofText (document : String) : Except Fault Config := do
  let config ← (read document).mapError fun report => .config (.document report)
  config.validate
  return config

/-- The valid configuration in a file, given what reading its bytes gave. -/
def ofFile (path : String) : Except FileDefect Bytes → Except Fault Config
  | .error defect => .error (.config (.unreadable path defect))
  | .ok bytes =>
      match Bytes.toText? bytes with
      | none => .error (.config (.unreadable path .notText))
      | some document => ofText document

end Quorum.Config
