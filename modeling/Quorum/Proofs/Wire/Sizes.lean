import Mathlib.Algebra.Order.BigOperators.Group.List
import Mathlib.Algebra.Order.Ring.Nat
import Quorum.Frame
import Quorum.Proofs.Wire.Reading

/-! Sizes of bundles on the wire. A bundle takes a fixed number of bytes for itself and for each
vote, and those of the hashes, which may be of any length. It can be sent if all that fits a frame.
-/

namespace Quorum

/-- The bytes of both hashes. -/
def Candidate.hashLength (candidate : Candidate) : Nat :=
  candidate.proposal.length + candidate.block.length

/-- The signature and the key have the lengths of those of Ed25519. -/
structure Vote.Standard (vote : Vote) : Prop where
  signature : vote.signature.bytes.length = 64
  key : vote.key.bytes.length = 32

namespace Wire

/-- The bytes that a vote takes, apart from its hashes. -/
def Entry.overhead : Nat :=
  145

/-- The bytes that a bundle takes, apart from its votes. -/
def Message.overhead : Nat :=
  12

theorem length_encode_message (message : Message)
    : message.encode.length
      = Message.overhead + (message.entries.map (·.encode.length)).sum := by
  simp only [Message.encode, Message.overhead, List.length_append, Bytes.length_littleEndian,
    List.length_flatMap]

theorem length_encode_standard {vote : Vote} (standard : vote.Standard)
    : (Entry.ofVote vote).encode.length = Entry.overhead + vote.candidate.hashLength := by
  have signature : (Entry.ofVote vote).signature.length = 64 := standard.signature
  have key : (Entry.ofVote vote).key.length = 32 := standard.key
  rw [length_encode_entry, signature, key, Entry.overhead, Candidate.hashLength]
  simp only [Entry.ofVote]
  omega

theorem length_encode_ofVotes {votes : List Vote} (standard : ∀ vote ∈ votes, vote.Standard)
    : (Message.ofVotes votes).encode.length
      = Message.overhead
        + (votes.map fun vote => Entry.overhead + vote.candidate.hashLength).sum := by
  rw [length_encode_message, Message.ofVotes, List.map_map]
  congr 2
  exact List.map_congr_left fun vote member => length_encode_standard (standard vote member)

-----------------------------------------------------------------------------------------
-- Frames
-----------------------------------------------------------------------------------------

/-- The bundle can be written as a frame. -/
def Fits (votes : List Vote) : Prop :=
  ∃ bytes, Frame.encode (Message.ofVotes votes).encode = .ok bytes

theorem fits_iff {votes : List Vote}
    : Fits votes ↔ (Message.ofVotes votes).encode.length ≤ Frame.limit := by
  unfold Fits Frame.encode
  split <;> simp [*]

theorem fits_iff_of_standard {votes : List Vote} (standard : ∀ vote ∈ votes, vote.Standard)
    : Fits votes
      ↔ Message.overhead
          + (votes.map fun vote => Entry.overhead + vote.candidate.hashLength).sum
        ≤ Frame.limit := by
  rw [fits_iff, length_encode_ofVotes standard]

/-- A bundle of `count` votes fits if there is room for so many of them with hashes of such length.
-/
theorem fits_of_hashLength_le {votes : List Vote} (standard : ∀ vote ∈ votes, vote.Standard)
    {count length : Nat} (few : votes.length ≤ count)
    (short : ∀ vote ∈ votes, vote.candidate.hashLength ≤ length)
    (room : Message.overhead + count * (Entry.overhead + length) ≤ Frame.limit)
    : Fits votes := by
  rw [fits_iff_of_standard standard]
  have each := List.sum_le_card_nsmul
    (votes.map fun vote => Entry.overhead + vote.candidate.hashLength) (Entry.overhead + length)
    (List.forall_mem_map.mpr fun vote member => Nat.add_le_add_left (short vote member) _)
  rw [List.length_map, Nat.nsmul_eq_mul] at each
  have within := Nat.mul_le_mul_right (Entry.overhead + length) few
  omega

/-- The votes of a bundle fit one by one if they fit together. -/
theorem Fits.single {votes : List Vote} (fits : Fits votes) {vote : Vote} (member : vote ∈ votes)
    : Fits [vote] := by
  rw [fits_iff, length_encode_message] at fits ⊢
  have part : (Entry.ofVote vote).encode.length
      ≤ ((Message.ofVotes votes).entries.map (·.encode.length)).sum :=
    List.le_sum_of_mem (List.mem_map_of_mem (List.mem_map_of_mem member))
  simp only [Message.ofVotes, List.map_cons, List.map_nil, List.sum_singleton] at part fits ⊢
  omega

/-- The votes came as the message of a frame. -/
def Arrived (votes : List Vote) : Prop :=
  ∃ frame message,
    frame.length ≤ Frame.limit ∧ Message.decode frame = .ok message ∧ message.votes = votes

/-- What came in a frame fits one, also if votes with unknown schemes were left out. -/
theorem Arrived.fits {votes : List Vote} (arrived : Arrived votes) : Fits votes := by
  obtain ⟨frame, message, short, read, rfl⟩ := arrived
  have written := (decode_eq_ok.mp read).2.length_le
  have kept : ((message.votes.map Entry.ofVote).map (·.encode.length)).sum
      ≤ (message.entries.map (·.encode.length)).sum := by
    rw [message.map_ofVote_votes]
    exact (List.filter_sublist.map _).sum_le_sum fun _ _ => Nat.zero_le _
  rw [length_encode_message] at written
  rw [fits_iff, length_encode_message]
  simp only [Message.ofVotes]
  omega

/-- A bundle that fits a frame may come in one. -/
theorem Fits.arrived {votes : List Vote} (fits : Fits votes) : Arrived votes := by
  rw [fits_iff] at fits
  have sized : (Message.ofVotes votes).Sized :=
    Message.sized_of_length (Nat.lt_of_le_of_lt fits (by decide))
  exact ⟨_, _, fits, decode_eq_ok.mpr ⟨sized, List.prefix_rfl⟩, Message.votes_ofVotes votes⟩

end Wire

end Quorum
