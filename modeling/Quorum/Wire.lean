import Quorum.Bundle

/-! Messages between nodes. A message carries a bundle; numbers have fixed widths and are little
endian, lists follow their lengths. Reading ignores what follows the message.
-/

namespace Quorum.Wire

/-- A vote as it travels; the scheme of its key is a tag that may be unknown. -/
structure Entry where
  round : Round
  proposal : Bytes
  block : Bytes
  signature : Bytes
  key : Bytes
  tag : UInt8
  deriving DecidableEq

namespace Entry

def ofVote (vote : Vote) : Entry :=
  ⟨vote.round, vote.candidate.proposal, vote.candidate.block, vote.signature.bytes,
    vote.key.bytes, vote.key.algorithm.tag⟩

def toVote (entry : Entry) : Except Fault Vote := do
  let algorithm ← Algorithm.ofTag entry.tag
  return ⟨⟨entry.round, entry.proposal, entry.block⟩, ⟨entry.signature⟩, ⟨algorithm, entry.key⟩⟩

theorem toVote_ofVote (vote : Vote) : (ofVote vote).toVote = .ok vote := by
  simp only [ofVote, toVote, Algorithm.ofTag, Algorithm.ofTag?_tag]
  rfl

end Entry

/-- A message with a bundle. -/
structure Message where
  entries : List Entry
  deriving DecidableEq

namespace Message

def ofVotes (votes : List Vote) : Message :=
  ⟨votes.map .ofVote⟩

/-- The votes with known schemes. -/
def votes (message : Message) : List Vote :=
  message.entries.filterMap fun entry => entry.toVote.toOption

end Message

/-! Writing -/

def encodeBytes (bytes : Bytes) : Bytes :=
  Bytes.littleEndian 8 bytes.length ++ bytes

def Entry.encode (entry : Entry) : Bytes :=
  Bytes.littleEndian 8 entry.round.height.toNat ++ Bytes.littleEndian 8 entry.round.counter.toNat
    ++ encodeBytes entry.proposal ++ encodeBytes entry.block ++ encodeBytes entry.signature
    ++ encodeBytes entry.key ++ [entry.tag]

/-- The index of the kind of message, of which there is one, and the entries. -/
def Message.encode (message : Message) : Bytes :=
  Bytes.littleEndian 4 0 ++ Bytes.littleEndian 8 message.entries.length
    ++ message.entries.flatMap Entry.encode

/-! Reading -/

/-- Reads a value from the front of some bytes. -/
abbrev Decoder := StateT Bytes (Except WireDefect)

/-- The next bytes, exactly as many as asked for. -/
def decodeExactly (count : Nat) : Decoder Bytes := fun bytes =>
  let front := bytes.take count
  if front.length = count then .ok (front, bytes.drop count) else .error .truncated

def decodeNat (width : Nat) : Decoder Nat := do
  return Bytes.ofLittleEndian (← decodeExactly width)

def decodeWord : Decoder UInt64 := do
  return UInt64.ofNat (← decodeNat 8)

def decodeBytes : Decoder Bytes := do
  decodeExactly (← decodeNat 8)

def decodeEntry : Decoder Entry := do
  let height ← decodeWord
  let counter ← decodeWord
  let proposal ← decodeBytes
  let block ← decodeBytes
  let signature ← decodeBytes
  let key ← decodeBytes
  let tag ← decodeNat 1
  return ⟨⟨height, counter⟩, proposal, block, signature, key, UInt8.ofNat tag⟩

/-- Reads `count` entries that follow those in `before`, which come last first. -/
def decodeEntries (before : List Entry) : Nat → Decoder (List Entry)
  | 0 => return before.reverse
  | count + 1 => do
      let entry ← decodeEntry
      decodeEntries (entry :: before) count

def decodeMessage : Decoder Message := do
  let index ← decodeNat 4
  if index ≠ 0 then
    throw (.variant index)
  let count ← decodeNat 8
  return ⟨← decodeEntries [] count⟩

/-- Reads the message at the front of a frame. -/
def Message.decode (frame : Bytes) : Except Fault Message :=
  match decodeMessage frame with
  | .ok (message, _) => .ok message
  | .error defect => .error (.codec defect)

end Quorum.Wire
