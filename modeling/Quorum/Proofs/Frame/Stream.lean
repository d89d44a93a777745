import Quorum.Frame

/-! Streams of frames. However a stream is cut, a reader finds its frames in their order and stops
inside the first that has not arrived as a whole.
-/

namespace Quorum.Frame

/-- A frame after its length. -/
def framed (frame : Bytes) : Bytes :=
  Bytes.bigEndian 4 frame.length ++ frame

def stream (frames : List Bytes) : Bytes :=
  frames.flatMap framed

theorem eq_nil_of_stream {frames : List Bytes} (none : stream frames = []) : frames = [] := by
  cases frames with
  | nil => rfl
  | cons frame frames =>
      have long := congrArg List.length none
      simp [stream, framed] at long

theorem encode_eq_ok {frame bytes : Bytes}
    : encode frame = .ok bytes ↔ frame.length ≤ limit ∧ framed frame = bytes := by
  unfold encode
  split
  · next small => simp [small, framed]
  · next large => simp [large]

namespace Reader

/-- What has arrived and was not read as part of a frame yet, the announced length included. -/
def unread (reader : Reader) : Bytes :=
  match reader.announced with
  | none => reader.buffer
  | some length => Bytes.bigEndian 4 length ++ reader.buffer

/-- An announced length is within the limit. -/
def Sound (reader : Reader) : Prop :=
  ∀ length ∈ reader.announced, length ≤ limit

variable {reader : Reader}

@[simp] theorem unread_receive (bytes : Bytes)
    : (reader.receive bytes).unread = reader.unread ++ bytes := by
  obtain ⟨announced, buffer⟩ := reader
  cases announced with
  | none => rfl
  | some length => exact (List.append_assoc _ _ _).symm

theorem Sound.receive (sound : reader.Sound) (bytes : Bytes) : (reader.receive bytes).Sound :=
  sound

theorem sound_unannounced (buffer : Bytes) : (⟨none, buffer⟩ : Reader).Sound :=
  nofun

-----------------------------------------------------------------------------------------
-- Lengths
-----------------------------------------------------------------------------------------

/-- A length within the limit is found again in its four bytes. -/
theorem ofBigEndian_length {length : Nat} (small : length ≤ limit)
    : Bytes.ofBigEndian (Bytes.bigEndian 4 length) = length := by
  rw [Bytes.ofBigEndian_bigEndian]
  exact Nat.mod_eq_of_lt (Nat.lt_of_le_of_lt small (by decide))

/-- Once its length has arrived, the next frame is announced. -/
theorem announce_of_unread {length : Nat} {front : Bytes} (sound : reader.Sound)
    (small : length ≤ limit) (unread : reader.unread = Bytes.bigEndian 4 length ++ front)
    : reader.announce = .ok ⟨some length, front⟩ := by
  obtain ⟨announced, buffer⟩ := reader
  cases announced with
  | none =>
      obtain rfl : buffer = Bytes.bigEndian 4 length ++ front := unread
      change (if Bytes.ofBigEndian (Bytes.bigEndian 4 length) ≤ limit
        then Except.ok (⟨some (Bytes.ofBigEndian (Bytes.bigEndian 4 length)), front⟩ : Reader)
        else .error Defect.oversized) = _
      rw [ofBigEndian_length small, if_pos small]
  | some known =>
      obtain ⟨same, rfl⟩ := List.append_inj unread (by simp)
      have same := congrArg Bytes.ofBigEndian same
      rw [ofBigEndian_length (sound known rfl), ofBigEndian_length small] at same
      subst same
      rfl

/-- Before its length has arrived, no frame is announced. -/
theorem announce_of_short (short : reader.unread.length < 4)
    : reader.announce = .ok reader ∧ reader.take? = none := by
  obtain ⟨announced, buffer⟩ := reader
  cases announced with
  | none =>
      refine ⟨?_, rfl⟩
      match buffer, short with
      | [], _ | [_], _ | [_, _], _ | [_, _, _], _ => rfl
  | some length =>
      simp only [unread, List.length_append, Bytes.length_bigEndian] at short
      omega

-----------------------------------------------------------------------------------------
-- Frames
-----------------------------------------------------------------------------------------

theorem readAfter_of_missing {announced : Reader} (known : reader.announce = .ok announced)
    (missing : announced.take? = none) (before : List Bytes)
    : reader.readAfter before = ⟨before.reverse, none, announced⟩ := by
  rw [readAfter]
  split
  · next refused => simp [known] at refused
  · next accepted =>
      obtain rfl := Except.ok.inj (known.symm.trans accepted)
      split
      · rfl
      · next found => simp [missing] at found

theorem readAfter_of_taken {announced rest : Reader} {frame : Bytes}
    (known : reader.announce = .ok announced) (taken : announced.take? = some (frame, rest))
    (before : List Bytes)
    : reader.readAfter before = rest.readAfter (frame :: before) := by
  rw [readAfter]
  split
  · next refused => simp [known] at refused
  · next accepted =>
      obtain rfl := Except.ok.inj (known.symm.trans accepted)
      split
      · next missing => simp [taken] at missing
      · next found =>
          obtain ⟨rfl, rfl⟩ := Prod.mk.inj (Option.some.inj (taken.symm.trans found))
          rfl

/-- A frame that has arrived as a whole is read, and what follows it is read next. -/
theorem readAfter_framed {frame rest : Bytes} (sound : reader.Sound) (small : frame.length ≤ limit)
    (unread : reader.unread = framed frame ++ rest) (before : List Bytes)
    : reader.readAfter before = (⟨none, rest⟩ : Reader).readAfter (frame :: before) := by
  rw [framed, List.append_assoc] at unread
  refine readAfter_of_taken (announce_of_unread sound small unread) ?_ before
  simp [take?]

/-- Inside a frame the reader stops and keeps what it has of it. -/
theorem readAfter_part {frame more : Bytes} (sound : reader.Sound) (small : frame.length ≤ limit)
    (part : reader.unread ++ more = framed frame) (missing : more ≠ []) (before : List Bytes)
    : ∃ last : Reader,
        reader.readAfter before = ⟨before.reverse, none, last⟩
        ∧ last.Sound ∧ last.unread = reader.unread := by
  by_cases short : reader.unread.length < 4
  · obtain ⟨unannounced, none⟩ := announce_of_short short
    exact ⟨reader, readAfter_of_missing unannounced none before, sound, rfl⟩
  · have whole := congrArg List.length part
    simp only [framed, List.length_append, Bytes.length_bigEndian] at whole
    have longer := List.length_pos_iff.mpr missing
    have unread : reader.unread = Bytes.bigEndian 4 frame.length ++ reader.unread.drop 4 := by
      have header := congrArg (List.take 4) part
      rw [framed, List.take_append_of_le_length (by omega),
        List.take_left' (Bytes.length_bigEndian ..)] at header
      rw [← header, List.take_append_drop]
    refine ⟨_, readAfter_of_missing (announce_of_unread sound small unread) ?_ before, ?_,
      unread.symm⟩
    · simp only [take?, List.length_take, List.length_drop]
      exact if_neg (by omega)
    · intro length announced
      cases announced
      exact small

-----------------------------------------------------------------------------------------
-- Streams
-----------------------------------------------------------------------------------------

/-- What has arrived holds the first frame, or a part of it that something is missing of. -/
theorem whole_or_part {frame unread later after : Bytes}
    (same : unread ++ later = frame ++ after)
    : (∃ rest, unread = frame ++ rest ∧ rest ++ later = after)
      ∨ ∃ more, more ≠ [] ∧ unread ++ more = frame ∧ later = more ++ after := by
  rcases List.append_eq_append_iff.mp same with ⟨more, part, rest⟩ | ⟨rest, whole, more⟩
  · by_cases none : more = []
    · subst none
      exact .inl ⟨[], by rw [part, List.append_nil, List.append_nil], rest⟩
    · exact .inr ⟨more, none, part.symm, rest⟩
  · exact .inl ⟨rest, whole, more.symm⟩

/-- From the front of a stream the reader takes its frames in their order, up to the one of which
something comes `later`; by induction on the frames of the stream.
-/
theorem readAfter_stream {frames : List Bytes} {later : Bytes} (sound : reader.Sound)
    (small : ∀ frame ∈ frames, frame.length ≤ limit)
    (whole : reader.unread ++ later = stream frames) (before : List Bytes)
    : ∃ front back last,
        frames = front ++ back
        ∧ reader.readAfter before = ⟨before.reverse ++ front, none, last⟩
        ∧ last.Sound ∧ last.unread ++ later = stream back ∧ (later = [] → back = []) := by
  induction frames generalizing reader before with
  | nil =>
      obtain ⟨none, -⟩ := List.append_eq_nil_iff.mp whole
      obtain ⟨unannounced, missing⟩ := announce_of_short (by rw [none]; decide)
      refine ⟨[], [], reader, rfl, ?_, sound, whole, fun _ => rfl⟩
      rw [List.append_nil]
      exact readAfter_of_missing unannounced missing before
  | cons frame frames ih =>
      obtain ⟨fits, others⟩ := List.forall_mem_cons.mp small
      rcases whole_or_part whole with ⟨rest, unread, rest_whole⟩ | ⟨more, missing, part, rest⟩
      · obtain ⟨front, back, last, rfl, reading, stands⟩ :=
          ih (sound_unannounced rest) others rest_whole (frame :: before)
        refine ⟨frame :: front, back, last, rfl, ?_, stands⟩
        rw [readAfter_framed sound fits unread, reading]
        simp
      · obtain ⟨last, reading, stands, kept⟩ := readAfter_part sound fits part missing before
        refine ⟨[], frame :: frames, last, rfl, ?_, stands, ?_, ?_⟩
        · rw [reading, List.append_nil]
        · rw [kept]
          exact whole
        · intro ended
          exact absurd (List.append_eq_nil_iff.mp (rest.symm.trans ended)).1 missing

end Reader

end Quorum.Frame
