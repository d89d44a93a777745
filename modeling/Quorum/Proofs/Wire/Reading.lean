import Quorum.Wire

/-! Messages on the wire. Reading accepts exactly what writing produces, whatever follows it; so no
two bundles are written alike, and of what is read each vote with a known scheme is kept.
-/

namespace Quorum.Wire

variable {bytes rest : Bytes}

-----------------------------------------------------------------------------------------
-- Steps of a decoder
-----------------------------------------------------------------------------------------

theorem bind_eq_ok {α β : Type} {first : Decoder α} {next : α → Decoder β} {value : β}
    : (first >>= next) bytes = .ok (value, rest)
      ↔ ∃ part middle, first bytes = .ok (part, middle) ∧ next part middle = .ok (value, rest) := by
  change (first bytes >>= fun result => next result.1 result.2) = _ ↔ _
  cases first bytes with
  | error defect => exact ⟨nofun, nofun⟩
  | ok result =>
      constructor
      · intro read
        exact ⟨result.1, result.2, rfl, read⟩
      · intro steps
        obtain ⟨_, _, ⟨⟩, read⟩ := steps
        exact read

theorem pure_eq_ok {α : Type} {value result : α}
    : (pure value : Decoder α) bytes = .ok (result, rest) ↔ value = result ∧ bytes = rest := by
  change Except.ok (value, bytes) = _ ↔ _
  simp

theorem throw_bind_ne_ok {α β : Type} {defect : WireDefect} {next : α → Decoder β} {value : β}
    : (throw defect >>= next : Decoder β) bytes ≠ .ok (value, rest) := by
  change Except.error defect ≠ _
  exact nofun

-----------------------------------------------------------------------------------------
-- Fields
-----------------------------------------------------------------------------------------

theorem decodeExactly_eq_ok {count : Nat} {front : Bytes}
    : decodeExactly count bytes = .ok (front, rest)
      ↔ front.length = count ∧ bytes = front ++ rest := by
  unfold decodeExactly
  simp only
  constructor
  · intro read
    split at read
    · next enough =>
        cases read
        exact ⟨enough, (List.take_append_drop count bytes).symm⟩
    · cases read
  · intro written
    obtain ⟨rfl, rfl⟩ := written
    simp

theorem decodeNat_eq_ok {width number : Nat}
    : decodeNat width bytes = .ok (number, rest)
      ↔ number < 256 ^ width ∧ bytes = Bytes.littleEndian width number ++ rest := by
  simp only [decodeNat, bind_eq_ok, pure_eq_ok, decodeExactly_eq_ok]
  constructor
  · intro read
    obtain ⟨front, _, ⟨rfl, rfl⟩, rfl, rfl⟩ := read
    exact ⟨Bytes.ofLittleEndian_lt front, by rw [Bytes.littleEndian_ofLittleEndian]⟩
  · intro written
    obtain ⟨small, rfl⟩ := written
    refine ⟨_, _, ⟨Bytes.length_littleEndian width number, rfl⟩, ?_, rfl⟩
    rw [Bytes.ofLittleEndian_littleEndian, Nat.mod_eq_of_lt small]

theorem decodeWord_eq_ok {word : UInt64}
    : decodeWord bytes = .ok (word, rest)
      ↔ bytes = Bytes.littleEndian 8 word.toNat ++ rest := by
  simp only [decodeWord, bind_eq_ok, pure_eq_ok, decodeNat_eq_ok]
  constructor
  · intro read
    obtain ⟨number, _, ⟨small, rfl⟩, rfl, rfl⟩ := read
    rw [UInt64.toNat_ofNat_of_lt' small]
  · intro written
    obtain rfl := written
    exact ⟨_, _, ⟨word.toNat_lt, rfl⟩, UInt64.ofNat_toNat, rfl⟩

/-- A byte string is read after its length, which fits 64 bits. -/
theorem decodeBytes_eq_ok {value : Bytes}
    : decodeBytes bytes = .ok (value, rest)
      ↔ value.length < UInt64.size ∧ bytes = encodeBytes value ++ rest := by
  simp only [decodeBytes, bind_eq_ok, decodeNat_eq_ok, decodeExactly_eq_ok, encodeBytes,
    List.append_assoc]
  constructor
  · intro read
    obtain ⟨_, _, ⟨small, rfl⟩, rfl, rfl⟩ := read
    exact ⟨small, rfl⟩
  · intro written
    obtain ⟨small, rfl⟩ := written
    exact ⟨_, _, ⟨small, rfl⟩, rfl, rfl⟩

theorem littleEndian_tag (tag : UInt8) : Bytes.littleEndian 1 tag.toNat = [tag] := by
  simp [Bytes.littleEndian]

-----------------------------------------------------------------------------------------
-- Entries and messages
-----------------------------------------------------------------------------------------

/-- The lengths of the fields fit 64 bits. -/
structure Entry.Sized (entry : Entry) : Prop where
  proposal : entry.proposal.length < UInt64.size
  block : entry.block.length < UInt64.size
  signature : entry.signature.length < UInt64.size
  key : entry.key.length < UInt64.size

/-- The number of entries and the lengths of their fields fit 64 bits. -/
structure Message.Sized (message : Message) : Prop where
  few : message.entries.length < UInt64.size
  entries : ∀ entry ∈ message.entries, entry.Sized

theorem decodeEntry_eq_ok {entry : Entry}
    : decodeEntry bytes = .ok (entry, rest) ↔ entry.Sized ∧ bytes = entry.encode ++ rest := by
  simp only [decodeEntry, bind_eq_ok, pure_eq_ok, decodeWord_eq_ok, decodeBytes_eq_ok,
    decodeNat_eq_ok, Entry.encode, List.append_assoc]
  constructor
  · intro read
    obtain ⟨height, _, rfl, counter, _, rfl, proposal, _, ⟨sizedProposal, rfl⟩, block, _,
      ⟨sizedBlock, rfl⟩, signature, _, ⟨sizedSignature, rfl⟩, key, _, ⟨sizedKey, rfl⟩, tag, _,
      ⟨small, rfl⟩, rfl, rfl⟩ := read
    refine ⟨⟨sizedProposal, sizedBlock, sizedSignature, sizedKey⟩, ?_⟩
    rw [← littleEndian_tag, UInt8.toNat_ofNat_of_lt' small]
  · intro written
    obtain ⟨sized, rfl⟩ := written
    refine ⟨_, _, rfl, _, _, rfl, _, _, ⟨sized.proposal, rfl⟩, _, _, ⟨sized.block, rfl⟩, _, _,
      ⟨sized.signature, rfl⟩, _, _, ⟨sized.key, rfl⟩, entry.tag.toNat, rest,
      ⟨entry.tag.toNat_lt, ?_⟩, ?_, rfl⟩
    · rw [littleEndian_tag]
    · rw [UInt8.ofNat_toNat]

/-- Entries are read one after the other; by induction on their number, whatever was read before. -/
theorem decodeEntries_eq_ok {before entries : List Entry} {count : Nat}
    : decodeEntries before count bytes = .ok (entries, rest)
      ↔ ∃ more, more.length = count ∧ entries = before.reverse ++ more
          ∧ (∀ entry ∈ more, entry.Sized) ∧ bytes = more.flatMap Entry.encode ++ rest := by
  induction count generalizing before bytes with
  | zero =>
      rw [decodeEntries, pure_eq_ok]
      constructor
      · intro read
        obtain ⟨rfl, rfl⟩ := read
        exact ⟨[], rfl, (List.append_nil _).symm, nofun, rfl⟩
      · intro written
        obtain ⟨more, none, rfl, -, rfl⟩ := written
        obtain rfl := List.length_eq_zero_iff.mp none
        exact ⟨(List.append_nil _).symm, rfl⟩
  | succ count ih =>
      simp only [decodeEntries, bind_eq_ok, decodeEntry_eq_ok, ih]
      constructor
      · intro read
        obtain ⟨entry, _, ⟨sized, rfl⟩, more, rfl, rfl, all, rfl⟩ := read
        exact ⟨entry :: more, rfl, by simp, List.forall_mem_cons.mpr ⟨sized, all⟩, by simp⟩
      · intro written
        obtain ⟨_ | ⟨entry, more⟩, number, rfl, all, rfl⟩ := written
        · cases number
        · obtain ⟨sized, all⟩ := List.forall_mem_cons.mp all
          exact ⟨entry, _, ⟨sized, by rw [List.flatMap_cons, List.append_assoc]⟩, more,
            Nat.succ.inj number, by simp, all, rfl⟩

theorem decodeMessage_eq_ok {message : Message}
    : decodeMessage bytes = .ok (message, rest)
      ↔ message.Sized ∧ bytes = message.encode ++ rest := by
  simp only [decodeMessage, bind_eq_ok, decodeNat_eq_ok, Message.encode, List.append_assoc]
  constructor
  · intro steps
    obtain ⟨index, _, ⟨-, rfl⟩, read⟩ := steps
    split at read
    · exact absurd read throw_bind_ne_ok
    · next known =>
        obtain rfl := Decidable.not_not.mp known
        simp only [bind_eq_ok, pure_eq_ok, decodeNat_eq_ok, decodeEntries_eq_ok] at read
        obtain ⟨_, _, ⟨few, rfl⟩, _, _, ⟨entries, rfl, rfl, all, rfl⟩, rfl, rfl⟩ := read
        exact ⟨⟨few, all⟩, rfl⟩
  · intro written
    obtain ⟨sized, rfl⟩ := written
    refine ⟨0, _, ⟨by decide, rfl⟩, ?_⟩
    rw [if_neg (Decidable.not_not.mpr rfl)]
    simp only [bind_eq_ok, pure_eq_ok, decodeNat_eq_ok, decodeEntries_eq_ok]
    exact ⟨_, _, ⟨sized.few, rfl⟩, _, _, ⟨message.entries, rfl, rfl, sized.entries, rfl⟩, rfl, rfl⟩

/-- A frame is read as a message exactly if it begins with what is written for it. -/
theorem decode_eq_ok {message : Message}
    : Message.decode bytes = .ok message ↔ message.Sized ∧ message.encode <+: bytes := by
  have read
      : Message.decode bytes = .ok message
        ↔ ∃ rest, decodeMessage bytes = .ok (message, rest) := by
    unfold Message.decode
    cases decodeMessage bytes with
    | error defect => exact ⟨nofun, nofun⟩
    | ok result => simp [Prod.ext_iff]
  simp only [read, decodeMessage_eq_ok, exists_and_left]
  exact and_congr_right fun _ => exists_congr fun _ => eq_comm

-----------------------------------------------------------------------------------------
-- Lengths
-----------------------------------------------------------------------------------------

@[simp] theorem length_encodeBytes (value : Bytes)
    : (encodeBytes value).length = 8 + value.length := by
  simp [encodeBytes]

theorem length_encode_entry (entry : Entry)
    : entry.encode.length
      = 49 + entry.proposal.length + entry.block.length + entry.signature.length
        + entry.key.length := by
  simp only [Entry.encode, List.length_append, Bytes.length_littleEndian, length_encodeBytes,
    List.length_singleton]
  omega

/-- A list is not longer than what is written for its entries, and no entry alone is longer. -/
theorem length_le_flatMap_encode (entries : List Entry)
    : entries.length ≤ (entries.flatMap Entry.encode).length
      ∧ ∀ entry ∈ entries, entry.encode.length ≤ (entries.flatMap Entry.encode).length := by
  induction entries with
  | nil => simp
  | cons head tail ih =>
      have long := length_encode_entry head
      simp only [List.flatMap_cons, List.length_append, List.length_cons, List.forall_mem_cons]
      exact ⟨by omega, by omega, fun entry member => Nat.le_add_left_of_le (ih.2 entry member)⟩

/-- What is written in fewer than `2 ^ 64` bytes has no longer parts. -/
theorem Message.sized_of_length {message : Message} (short : message.encode.length < UInt64.size)
    : message.Sized := by
  obtain ⟨few, each⟩ := length_le_flatMap_encode message.entries
  simp only [Message.encode, List.length_append, Bytes.length_littleEndian] at short
  refine ⟨by omega, fun entry member => ?_⟩
  have long := length_encode_entry entry
  have within := each entry member
  constructor <;> omega

-----------------------------------------------------------------------------------------
-- Votes and entries
-----------------------------------------------------------------------------------------

/-- The scheme of the entry's key is known. -/
def Entry.Known (entry : Entry) : Prop :=
  entry.tag = 0 ∨ entry.tag = 1

instance (entry : Entry) : Decidable entry.Known :=
  inferInstanceAs (Decidable (_ ∨ _))

theorem toVote_eq_ok {entry : Entry} {vote : Vote}
    : entry.toVote = .ok vote ↔ Entry.ofVote vote = entry := by
  constructor
  · intro read
    unfold Entry.toVote Algorithm.ofTag at read
    cases known : Algorithm.ofTag? entry.tag with
    | none => simp [known, Bind.bind, Except.bind] at read
    | some algorithm =>
        have same := Algorithm.tag_of_ofTag? known
        simp only [known] at read
        cases read
        simp only [Entry.ofVote, same]
        rfl
  · intro written
    obtain rfl := written
    exact Entry.toVote_ofVote vote

/-- An entry is read as a vote exactly if the scheme of its key is known. -/
theorem exists_toVote_iff {entry : Entry} : (∃ vote, entry.toVote = .ok vote) ↔ entry.Known := by
  simp only [toVote_eq_ok]
  constructor
  · intro found
    obtain ⟨vote, rfl⟩ := found
    cases algorithm : vote.key.algorithm with
    | ed25519Sha256 => exact .inl (by simp [Entry.ofVote, algorithm, Algorithm.tag])
    | ed25519Blake3 => exact .inr (by simp [Entry.ofVote, algorithm, Algorithm.tag])
  · obtain ⟨⟨height, counter⟩, proposal, block, signature, key, tag⟩ := entry
    intro known
    obtain (rfl | rfl) := known
    · exact ⟨⟨⟨⟨height, counter⟩, proposal, block⟩, ⟨signature⟩, ⟨.ed25519Sha256, key⟩⟩, rfl⟩
    · exact ⟨⟨⟨⟨height, counter⟩, proposal, block⟩, ⟨signature⟩, ⟨.ed25519Blake3, key⟩⟩, rfl⟩

theorem Message.votes_ofVotes (votes : List Vote) : (Message.ofVotes votes).votes = votes := by
  rw [Message.votes, Message.ofVotes, List.filterMap_map]
  have read : (fun entry : Entry => entry.toVote.toOption) ∘ Entry.ofVote = some :=
    funext fun vote => congrArg Except.toOption (Entry.toVote_ofVote vote)
  exact (congrArg (List.filterMap · votes) read).trans List.filterMap_some

/-- The votes of a message are its entries with known schemes. -/
theorem Message.map_ofVote_votes (message : Message)
    : message.votes.map Entry.ofVote = message.entries.filter fun entry => decide entry.Known := by
  have kept (entry : Entry)
      : (entry.toVote.toOption).map Entry.ofVote
        = Option.guard (fun entry => decide entry.Known) entry := by
    cases read : entry.toVote with
    | error fault =>
        have unknown : ¬ entry.Known := by
          rw [← exists_toVote_iff, read]
          intro found
          obtain ⟨vote, ⟨⟩⟩ := found
        simp [Except.toOption, Option.guard, unknown]
    | ok vote =>
        have known : entry.Known := exists_toVote_iff.mp ⟨vote, read⟩
        simp [Except.toOption, Option.guard, known, toVote_eq_ok.mp read]
  rw [Message.votes, List.map_filterMap, ← List.filterMap_eq_filter]
  exact congrArg (message.entries.filterMap ·) (funext kept)

-----------------------------------------------------------------------------------------
-- What is read is what is written
-----------------------------------------------------------------------------------------

/-- A frame, shorter than `2 ^ 64` bytes as whatever fits in memory, is read as a message exactly if
it begins with what is written for the message, which it does for one message only; no two bundles
are written alike. Each bundle is found again in its message, and of the entries of any message those
with known schemes are kept, in their order.
-/
theorem read_iff_written {frame : Bytes} (short : frame.length < UInt64.size)
    : (∀ message, Message.decode frame = .ok message ↔ message.encode <+: frame)
      ∧ (∀ first second : Message,
          first.encode <+: frame → second.encode <+: frame → first = second)
      ∧ (∀ first second,
          (Message.ofVotes first).encode = frame → (Message.ofVotes second).encode = frame
            → first = second)
      ∧ (∀ votes, (Message.ofVotes votes).votes = votes)
      ∧ ∀ message : Message,
          message.votes.map Entry.ofVote
            = message.entries.filter fun entry => decide entry.Known := by
  have reads (message : Message)
      : Message.decode frame = .ok message ↔ message.encode <+: frame := by
    rw [decode_eq_ok]
    constructor
    · exact And.right
    · intro front
      exact ⟨Message.sized_of_length (Nat.lt_of_le_of_lt front.length_le short), front⟩
  have one (first second : Message) (front : first.encode <+: frame)
      (other : second.encode <+: frame)
      : first = second := by
    rw [← reads] at front other
    exact Except.ok.inj (front.symm.trans other)
  refine ⟨reads, one, ?_, Message.votes_ofVotes, Message.map_ofVote_votes⟩
  intro first second written again
  have same : Message.ofVotes first = Message.ofVotes second := by
    apply one
    · exact ⟨[], (List.append_nil _).trans written⟩
    · exact ⟨[], (List.append_nil _).trans again⟩
  rw [← Message.votes_ofVotes first, same, Message.votes_ofVotes]

/-- A message with an entry of an unknown scheme, and a byte that follows it. -/
theorem read_iff_written_unknown
    : let message : Message := ⟨[⟨⟨1, 0⟩, [1], [2], [3], [4], 7⟩, ⟨⟨1, 1⟩, [], [], [5], [6], 1⟩]⟩
      Message.decode (message.encode ++ [9]) = .ok message
      ∧ message.votes.map Entry.ofVote = [⟨⟨1, 1⟩, [], [], [5], [6], 1⟩] := by
  intro message
  have short : (message.encode ++ [9]).length < UInt64.size := by decide +kernel
  obtain ⟨reads, -, -, -, kept⟩ := read_iff_written short
  exact ⟨(reads message).mpr (List.prefix_append _ _), (kept message).trans (by decide +kernel)⟩

end Quorum.Wire
