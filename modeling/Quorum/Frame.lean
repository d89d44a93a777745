import Quorum.Bytes

/-! Frames: pieces of a byte stream, each after its length in four bytes, most significant
first. A reader takes the stream in parts of any size.
-/

namespace Quorum.Frame

/-- The largest length of a frame. -/
def limit : Nat :=
  4 * 1024 * 1024

inductive Defect where
  /-- A length beyond the limit. -/
  | oversized
  /-- The stream ended inside a frame. -/
  | remaining
  deriving DecidableEq

def Defect.message : Defect → String
  | .oversized => "frame size too big"
  | .remaining => "bytes remaining on stream"

/-- A frame after its length; one beyond the limit cannot be written. -/
def encode (frame : Bytes) : Except Defect Bytes :=
  if frame.length ≤ limit then .ok (Bytes.bigEndian 4 frame.length ++ frame)
  else .error .oversized

structure Reader where
  /-- The length of the next frame, once it was read. -/
  announced : Option Nat
  /-- What has arrived and was not read yet. -/
  buffer : Bytes

namespace Reader

def empty : Reader :=
  ⟨none, []⟩

def receive (reader : Reader) (bytes : Bytes) : Reader :=
  { reader with buffer := reader.buffer ++ bytes }

/-- Reads the length of the next frame, if it has arrived. A length beyond the limit stays in
the buffer.
-/
def announce (reader : Reader) : Except Defect Reader :=
  match reader.announced, reader.buffer with
  | none, a :: b :: c :: d :: rest =>
      let length := Bytes.ofBigEndian [a, b, c, d]
      if length ≤ limit then .ok ⟨some length, rest⟩ else .error .oversized
  | _, _ => .ok reader

/-- Takes out the announced frame, if it has arrived as a whole. -/
def take? (reader : Reader) : Option (Bytes × Reader) :=
  match reader.announced with
  | none => none
  | some length =>
      let frame := reader.buffer.take length
      if frame.length = length then some (frame, ⟨none, reader.buffer.drop length⟩) else none

/-- The steps that a reader may still take without new bytes. -/
def work (reader : Reader) : Nat :=
  2 * reader.buffer.length + if reader.announced.isSome then 1 else 0

theorem work_announce_le {reader announced : Reader} (h : reader.announce = .ok announced)
    : announced.work ≤ reader.work := by
  unfold announce at h
  split at h
  · next unannounced arrived =>
      simp only at h
      split at h
      · cases h
        simp only [work, unannounced, arrived, List.length_cons, Option.isSome_none,
          Option.isSome_some, Bool.false_eq_true, if_false, if_true]
        omega
      · contradiction
  · cases h
    exact Nat.le_refl _

theorem work_take?_lt {reader rest : Reader} {frame : Bytes} (h : reader.take? = some (frame, rest))
    : rest.work < reader.work := by
  unfold take? at h
  split at h
  · contradiction
  · next announced =>
      simp only [Option.ite_none_right_eq_some] at h
      cases h.2
      simp only [work, announced, List.length_drop, Option.isSome_none, Option.isSome_some,
        Bool.false_eq_true, if_false, if_true]
      omega

/-- What a reader found: the frames, why it stopped if not for want of bytes, and where it
stands.
-/
structure Reading where
  frames : List Bytes
  defect : Option Defect
  reader : Reader

/-- Reads frames until more bytes are needed; those in `before` come last first. -/
def readAfter (before : List Bytes) (reader : Reader) : Reading :=
  match _announced : reader.announce with
  | .error defect => ⟨before.reverse, some defect, reader⟩
  | .ok announced =>
      match _taken : announced.take? with
      | none => ⟨before.reverse, none, announced⟩
      | some (frame, rest) => readAfter (frame :: before) rest
  termination_by reader.work
  decreasing_by
    exact Nat.lt_of_lt_of_le (work_take?_lt _taken) (work_announce_le _announced)

/-- Reads all frames that have arrived as a whole. -/
def read (reader : Reader) : Reading :=
  reader.readAfter []

/-- Reads what is left when the stream has ended; bytes of an unfinished frame are a defect. -/
def finish (reader : Reader) : Reading :=
  let reading := reader.read
  match reading.defect, reading.reader.buffer with
  | none, _ :: _ => { reading with defect := some .remaining }
  | _, _ => reading

end Reader

end Quorum.Frame
