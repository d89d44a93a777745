import Quorum.Bytes.Hex
import Quorum.Round
import Quorum.Signing.Ed25519
import Quorum.Toml.Defect

/-! What can go wrong, by cause, and the messages that say so. -/

namespace Quorum

/-- Why a list of peers is no roster. -/
inductive PeerDefect where
  | blankAddress
  | emptyKey (address : String)
  | repeatedAddress (address : String)
  | repeatedKey
  deriving DecidableEq

def PeerDefect.message : PeerDefect → String
  | .blankAddress => "empty address"
  | .emptyKey address => s!"peer {address} has an empty key"
  | .repeatedAddress address => s!"address {address} registered twice"
  | .repeatedKey => "public key registered twice"

/-- Why key material or a signature is refused. -/
inductive KeyDefect where
  | hex (fault : Hex.Fault)
  | publicLength
  | seedLength
  | signature (fault : Signing.Ed25519.Fault)
  deriving DecidableEq

def KeyDefect.message : KeyDefect → String
  | .hex fault => fault.message
  | .publicLength => "public key must be 32 bytes"
  | .seedLength => "signature error: SecretKey must be 32 bytes in length"
  | .signature fault => fault.message

/-- Why a file cannot be read or written. -/
inductive FileDefect where
  | missing
  | directory
  /-- A file stands where the path needs a directory. -/
  | notDirectory
  | notText
  | longName
  | forbidden
  /-- Another reason, in the words of the system. -/
  | other (reason : String)
  deriving DecidableEq

def FileDefect.message : FileDefect → String
  | .missing => "No such file or directory (os error 2)"
  | .directory => "Is a directory (os error 21)"
  | .notDirectory => "Not a directory (os error 20)"
  | .notText => "stream did not contain valid UTF-8"
  | .longName => "File name too long (os error 36)"
  | .forbidden => "Permission denied (os error 13)"
  | .other reason => reason

/-- Why a frame is no message. -/
inductive WireDefect where
  | truncated
  | variant (index : Nat)
  deriving DecidableEq

def WireDefect.message : WireDefect → String
  | .truncated => "io error: unexpected end of file"
  | .variant index => s!"invalid value: integer `{index}`, expected variant index 0 <= i < 1"

/-- Why a message cannot be queued for an address. -/
inductive LinkDefect where
  | full (address : String)
  | closed (address : String)
  deriving DecidableEq

def LinkDefect.message : LinkDefect → String
  | .full address => s!"queue to {address} unavailable: no available capacity"
  | .closed address => s!"queue to {address} unavailable: channel closed"

/-- Why a text or file is no configuration. -/
inductive ConfigDefect where
  | unreadable (path : String) (defect : FileDefect)
  | document (report : Toml.Report)
  | noPeers
  | algorithm (name : String)
  | algorithmOption (name : String)
  | repeatedAddress (address : String)
  | keyLength (address : String) (length : Nat)
  deriving DecidableEq

def ConfigDefect.message : ConfigDefect → String
  | .unreadable path defect => s!"cannot read {path}: {defect.message}"
  | .document report => report.message
  | .noPeers => "at least one [[peers]] entry is required"
  | .algorithm name => "unknown signature algorithm " ++ Text.quoted name
  | .algorithmOption name => s!"unknown signature algorithm '{name}'"
  | .repeatedAddress address => s!"duplicate peer address {address}"
  | .keyLength address length => s!"peer {address}: public key must be 32 bytes, got {length}"

/-- Why an operation is refused. -/
inductive Fault where
  | emptyPeerList
  | malformedPeer (defect : PeerDefect)
  | missingKey
  | invalidKey (defect : KeyDefect)
  | unknownAlgorithm (tag : UInt8)
  | stopped
  | alreadyVoted (round : Round)
  | roundFrozen (round : Round)
  | staleRound (round : Round)
  | network (defect : LinkDefect)
  | codec (defect : WireDefect)
  | config (defect : ConfigDefect)
  | file (defect : FileDefect)
  deriving DecidableEq

def Fault.message : Fault → String
  | .emptyPeerList => "peer list for round is empty"
  | .malformedPeer defect => "malformed peer: " ++ defect.message
  | .missingKey => "local signing key is missing"
  | .invalidKey defect => "invalid key: " ++ defect.message
  | .unknownAlgorithm tag => s!"unknown signature algorithm tag {tag}"
  | .stopped => "consensus gate is stopped"
  | .alreadyVoted round => s!"already voted in round {round.text}"
  | .roundFrozen round => s!"round {round.text} is frozen"
  | .staleRound round => s!"round {round.text} is behind the current round"
  | .network defect => "network error: " ++ defect.message
  | .codec defect => "codec error: " ++ defect.message
  | .config defect => "config error: " ++ defect.message
  | .file defect => "io error: " ++ defect.message

end Quorum
