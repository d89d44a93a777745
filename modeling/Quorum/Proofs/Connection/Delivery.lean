import Mathlib.Data.List.Basic
import Quorum.Connection
import Quorum.Link
import Quorum.Proofs.Frame.Stream
import Quorum.Proofs.Wire.Reading

/-! Delivery over the network. The bundles that are queued on a link come out of the peer's
connection as they were and in their order, however the stream is cut and whatever frames that are
no messages lie in it; the gate is handed those that are sound.
-/

namespace Quorum

-----------------------------------------------------------------------------------------
-- Links
-----------------------------------------------------------------------------------------

namespace Link

theorem send_eq_ok {link next : Link} {message : Wire.Message} (room : link.send message = .ok next)
    : next.queue = link.queue ++ [message] := by
  unfold send at room
  split at room
  · cases room
  · split at room
    · cases room
      rfl
    · cases room

theorem take?_eq_some {link next : Link} {message : Wire.Message}
    (waits : link.take? = some (message, next))
    : link.queue = message :: next.queue := by
  unfold take? at waits
  split at waits
  · cases waits
  · next waiting =>
      cases waits
      exact waiting

/-- Messages are queued on a link and the frames of those that wait longest are written, in any
order of both.
-/
inductive Passage : Link → List Wire.Message → List Bytes → Link → Prop where
  | rest (link : Link) : Passage link [] [] link
  | queue {link next last : Link} {message : Wire.Message} {sent : List Wire.Message}
    {frames : List Bytes}
    (room : link.send message = .ok next) (passage : Passage next sent frames last)
    : Passage link (message :: sent) frames last
  | write {link next last : Link} {message : Wire.Message} {sent : List Wire.Message}
    {frames : List Bytes}
    (waits : link.take? = some (message, next)) (passage : Passage next sent frames last)
    : Passage link sent ((frame? message).toList ++ frames) last

/-- A writer that empties the queue writes the frames of all that waited; by induction on them. -/
theorem passage_flush (link : Link)
    : Passage link [] (link.queue.filterMap frame?) (link.flush true).1 := by
  obtain ⟨address, queue, closed⟩ := link
  induction queue with
  | nil => exact .rest _
  | cons message queue ih =>
      have written : Passage ⟨address, message :: queue, closed⟩ [] _ ⟨address, [], closed⟩ :=
        .write rfl ih
      cases framed : frame? message <;> simpa [framed, flush] using written

/-- What waited or was queued was written or waits still, in its order; by induction on the
passage.
-/
theorem Passage.conserves {link last : Link} {sent : List Wire.Message} {frames : List Bytes}
    (passage : Passage link sent frames last)
    : ∃ written, link.queue ++ sent = written ++ last.queue ∧ frames = written.filterMap frame? := by
  induction passage with
  | rest link => exact ⟨[], List.append_nil _, rfl⟩
  | queue room _ ih =>
      obtain ⟨written, same, frames⟩ := ih
      refine ⟨written, ?_, frames⟩
      rw [← same, send_eq_ok room, List.append_assoc, List.singleton_append]
  | @write _ _ _ message _ _ waits _ ih =>
      obtain ⟨written, same, rfl⟩ := ih
      refine ⟨message :: written, ?_, ?_⟩
      · rw [take?_eq_some waits, List.cons_append, same, List.cons_append]
      · cases framed : frame? message <;> simp [framed]

/-- A short message is written as its frame. -/
theorem frame?_of_short {message : Wire.Message} (short : message.encode.length ≤ Frame.limit)
    : frame? message = some (Frame.framed message.encode) := by
  rw [frame?, Frame.encode_eq_ok.mpr ⟨short, rfl⟩]
  rfl

/-- Over a link that was empty before and after, short messages are written in the order in which
they were queued.
-/
theorem Passage.frames_eq {address : String} {last : Link} {sent : List Wire.Message}
    {frames : List Bytes} (passage : Passage (.opened address) sent frames last)
    (emptied : last.queue = [])
    (short : ∀ message ∈ sent, message.encode.length ≤ Frame.limit)
    : frames = sent.map fun message => Frame.framed message.encode := by
  obtain ⟨written, same, rfl⟩ := passage.conserves
  obtain rfl : sent = written := by simpa [opened, emptied] using same
  exact List.filterMap_eq_map_iff_forall_eq_some.mpr fun message member =>
    frame?_of_short (short message member)

end Link

-----------------------------------------------------------------------------------------
-- Connections
-----------------------------------------------------------------------------------------

namespace Connection

/-- A live connection finds the frames of a stream, in whatever parts it comes; by induction on the
parts. Before the first part, no whole frame may have arrived.
-/
theorem receiveAll_stream {reader : Frame.Reader} {parts frames : List Bytes}
    (sound : reader.Sound) (small : ∀ frame ∈ frames, frame.length ≤ Frame.limit)
    (whole : reader.unread ++ parts.flatten = Frame.stream frames)
    (pending : parts.flatten = [] → frames = [])
    : ∃ last, receiveAll ⟨reader, true⟩ parts = (⟨last, true⟩, frames.map .ofFrame) := by
  induction parts generalizing reader frames with
  | nil =>
      obtain rfl := pending rfl
      exact ⟨reader, rfl⟩
  | cons part parts ih =>
      rw [List.flatten_cons, ← List.append_assoc, ← Frame.Reader.unread_receive] at whole
      obtain ⟨front, back, next, rfl, reading, stands, rest, ended⟩ :=
        Frame.Reader.readAfter_stream (sound.receive part) small whole []
      obtain ⟨last, later⟩ :=
        ih stands (fun frame member => small frame (List.mem_append_right _ member)) rest ended
      refine ⟨last, ?_⟩
      have first : receive ⟨reader, true⟩ part = (⟨next, true⟩, front.map .ofFrame) := by
        simp only [receive, if_true, Frame.Reader.read, reading]
        rfl
      simp only [receiveAll, first, later, List.map_append]

theorem receiveAll_opened {parts frames : List Bytes}
    (small : ∀ frame ∈ frames, frame.length ≤ Frame.limit)
    (whole : parts.flatten = Frame.stream frames)
    : ∃ last, opened.receiveAll parts = (⟨last, true⟩, frames.map .ofFrame) := by
  apply receiveAll_stream (Frame.Reader.sound_unannounced []) small whole
  intro none
  exact Frame.eq_nil_of_stream (whole.symm.trans none)

end Connection

-----------------------------------------------------------------------------------------
-- Arrivals
-----------------------------------------------------------------------------------------

/-- A stream of the given pieces, which may have frames that are no messages among them. -/
inductive Strewn : List Bytes → Bytes → Prop where
  | done : Strewn [] []
  | piece {pieces : List Bytes} {bytes : Bytes} (piece : Bytes) (strewn : Strewn pieces bytes)
    : Strewn (piece :: pieces) (piece ++ bytes)
  | junk {pieces : List Bytes} {frame written bytes : Bytes}
    (unread : Arrival.ofFrame frame = .undecodable) (fits : Frame.encode frame = .ok written)
    (strewn : Strewn pieces bytes)
    : Strewn pieces (written ++ bytes)

namespace Arrival

/-- The bundles that frames bring and that are handed on. -/
def bundlesOf (frames : List Bytes) : List (List Vote) :=
  (frames.map ofFrame).filterMap delivered?

/-- Frames that are no messages bring no bundle; by induction on the stream. -/
theorem exists_stream_of_strewn {frames : List Bytes} {bytes : Bytes}
    (small : ∀ frame ∈ frames, frame.length ≤ Frame.limit)
    (strewn : Strewn (frames.map Frame.framed) bytes)
    : ∃ all : List Bytes,
        bytes = Frame.stream all ∧ (∀ frame ∈ all, frame.length ≤ Frame.limit)
        ∧ bundlesOf all = bundlesOf frames := by
  generalize same : frames.map Frame.framed = pieces at strewn
  induction strewn generalizing frames with
  | done =>
      obtain rfl := List.map_eq_nil_iff.mp same
      exact ⟨[], rfl, small, rfl⟩
  | piece piece _ ih =>
      obtain ⟨frame, frames, rfl, rfl, rfl⟩ := List.map_eq_cons_iff.mp same
      obtain ⟨fits, others⟩ := List.forall_mem_cons.mp small
      obtain ⟨all, rfl, within, bundles⟩ := ih others rfl
      refine ⟨frame :: all, rfl, List.forall_mem_cons.mpr ⟨fits, within⟩, ?_⟩
      simp only [bundlesOf, List.map_cons, List.filterMap_cons] at bundles ⊢
      rw [bundles]
  | @junk _ frame _ _ unread fits _ ih =>
      obtain ⟨smaller, rfl⟩ := Frame.encode_eq_ok.mp fits
      obtain ⟨all, rfl, within, bundles⟩ := ih small same
      refine ⟨frame :: all, rfl, List.forall_mem_cons.mpr ⟨smaller, within⟩, ?_⟩
      rw [← bundles]
      simp only [bundlesOf, List.map_cons, List.filterMap_cons, unread]
      rfl

/-- The frame of a bundle brings the bundle. -/
theorem ofFrame_encode {votes : List Vote}
    (short : (Wire.Message.ofVotes votes).encode.length ≤ Frame.limit)
    : ofFrame (Wire.Message.ofVotes votes).encode = .bundle votes := by
  have sized := Wire.Message.sized_of_length (Nat.lt_of_le_of_lt short (by decide))
  rw [ofFrame, Wire.decode_eq_ok.mpr ⟨sized, List.prefix_rfl⟩]
  exact congrArg bundle (Wire.Message.votes_ofVotes votes)

theorem bundlesOf_encode {bundles : List (List Vote)}
    (short : ∀ votes ∈ bundles, (Wire.Message.ofVotes votes).encode.length ≤ Frame.limit)
    : bundlesOf (bundles.map fun votes => (Wire.Message.ofVotes votes).encode)
      = bundles.filter fun votes => (Bundle.round votes).isOk := by
  have bring
      : (bundles.map fun votes => (Wire.Message.ofVotes votes).encode).map ofFrame
        = bundles.map bundle := by
    simp only [List.map_map, List.map_inj_left, Function.comp_apply]
    intro votes member
    exact ofFrame_encode (short votes member)
  have handed
      : delivered? ∘ bundle = Option.guard fun votes => (Bundle.round votes).isOk := by
    funext votes
    simp [delivered?, Option.guard]
  rw [bundlesOf, bring, List.filterMap_map, handed, List.filterMap_eq_filter]

end Arrival

-----------------------------------------------------------------------------------------
-- Gates
-----------------------------------------------------------------------------------------

namespace Gate

/-- Takes in what a connection brings. -/
def takeIn (settings : Settings) : Arrival → Activity Unit
  | .bundle votes => do
      let _ ← deliver settings votes
  | .undecodable => .emit Arrival.undecodable.counts

/-- Of what a connection brings, the bundles that are handed on alone change the gate; by induction
on the arrivals.
-/
theorem run_takeIn (settings : Settings) (arrivals : List Arrival) (gate : Gate)
    : ((forM arrivals (takeIn settings)).run gate).2.1
      = ((forM (arrivals.filterMap Arrival.delivered?) (receive settings)).run gate).2.1 := by
  induction arrivals generalizing gate with
  | nil => rfl
  | cons arrival arrivals ih =>
      cases arrival with
      | undecodable => simpa [takeIn, Arrival.delivered?, List.filterMap_cons] using ih gate
      | bundle votes =>
          by_cases sound : (Bundle.round votes).isOk
            <;> simp [takeIn, deliver, Arrival.delivered?, sound, ih]

end Gate

-----------------------------------------------------------------------------------------
-- From link to gate
-----------------------------------------------------------------------------------------

/-- Bundles that are queued on a link and written, each short enough for a frame, come out of the
peer's connection as they were and in their order, those aside that are not sound; the stream may
come in any parts and have short frames among them that are no messages. To the gate this is as if
it received the sound bundles alone.
-/
theorem bundles_delivered {address : String} {bundles : List (List Vote)} {frames : List Bytes}
    {last : Link} {bytes : Bytes} {parts : List Bytes}
    (short : ∀ votes ∈ bundles, (Wire.Message.ofVotes votes).encode.length ≤ Frame.limit)
    (passage : Link.Passage (.opened address) (bundles.map .ofVotes) frames last)
    (emptied : last.queue = []) (strewn : Strewn frames bytes) (cut : parts.flatten = bytes)
    : ∃ connection arrivals,
        Connection.opened.receiveAll parts = (connection, arrivals) ∧ connection.live
        ∧ arrivals.filterMap Arrival.delivered?
          = bundles.filter (fun votes => (Bundle.round votes).isOk)
        ∧ ∀ settings gate,
            ((forM arrivals (Gate.takeIn settings)).run gate).2.1
              = ((forM (bundles.filter fun votes => (Bundle.round votes).isOk)
                  (Gate.receive settings)).run gate).2.1 := by
  have small
      : ∀ frame ∈ bundles.map fun votes => (Wire.Message.ofVotes votes).encode,
          frame.length ≤ Frame.limit :=
    List.forall_mem_map.mpr short
  have pieces := passage.frames_eq emptied (List.forall_mem_map.mpr short)
  rw [List.map_map] at pieces
  obtain ⟨all, whole, within, bring⟩ : ∃ all : List Bytes,
      bytes = Frame.stream all ∧ (∀ frame ∈ all, frame.length ≤ Frame.limit)
      ∧ Arrival.bundlesOf all
        = Arrival.bundlesOf (bundles.map fun votes => (Wire.Message.ofVotes votes).encode) := by
    apply Arrival.exists_stream_of_strewn small
    rw [List.map_map]
    exact pieces ▸ strewn
  obtain ⟨connection, arrived⟩ := Connection.receiveAll_opened within (cut.trans whole)
  have handed
      : (all.map Arrival.ofFrame).filterMap Arrival.delivered?
        = bundles.filter fun votes => (Bundle.round votes).isOk :=
    bring.trans (Arrival.bundlesOf_encode short)
  refine ⟨_, _, arrived, rfl, handed, fun settings gate => ?_⟩
  rw [Gate.run_takeIn, handed]

/-- Two bundles with an empty one between them come through, although the stream begins with a
frame that is no message and is cut inside the length of the next.
-/
theorem bundles_delivered_past_junk
    : let first : Vote := ⟨⟨⟨1, 0⟩, [1], [1]⟩, ⟨[2]⟩, ⟨.ed25519Sha256, [3]⟩⟩
      let second : Vote := ⟨⟨⟨1, 1⟩, [4], [5]⟩, ⟨[6]⟩, ⟨.ed25519Blake3, [7]⟩⟩
      let bytes := Frame.stream ([9] :: [[first], [], [second]].map fun votes =>
        (Wire.Message.ofVotes votes).encode)
      (Connection.opened.receiveAll [bytes.take 7, bytes.drop 7]).2.filterMap Arrival.delivered?
      = [[first], [second]] := by
  intro first second bytes
  have short
      : ∀ votes ∈ [[first], [], [second]],
          (Wire.Message.ofVotes votes).encode.length ≤ Frame.limit := by
    decide +kernel
  have passage : Link.Passage (.opened "a") ([[first], [], [second]].map .ofVotes) _ _ :=
    .queue rfl (.queue rfl (.queue rfl (Link.passage_flush _)))
  rw [passage.frames_eq rfl (List.forall_mem_map.mpr short)] at passage
  have junk : Arrival.ofFrame [9] = .undecodable := by decide +kernel
  have strewn : Strewn _ bytes :=
    .junk junk (Frame.encode_eq_ok.mpr ⟨by decide, rfl⟩)
      (.piece _ (.piece _ (.piece _ .done)))
  have cut : [bytes.take 7, bytes.drop 7].flatten = bytes := by simp
  obtain ⟨_, _, arrived, _, handed, _⟩ := bundles_delivered short passage rfl strewn cut
  rw [arrived, handed]
  decide +kernel

end Quorum
