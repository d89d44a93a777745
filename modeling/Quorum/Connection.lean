import Quorum.Frame
import Quorum.Gate
import Quorum.Wire

/-! Inbound connections. Frames become bundles in the order of the stream; a frame that is no
message is skipped, a frame that is too large ends the connection.
-/

namespace Quorum

/-- What a frame brought. -/
inductive Arrival where
  | bundle (votes : List Vote)
  | undecodable
  deriving DecidableEq

namespace Arrival

def ofFrame (frame : Bytes) : Arrival :=
  match Wire.Message.decode frame with
  | .ok message => .bundle message.votes
  | .error _ => .undecodable

/-- The bundle that is handed on, if it is sound. -/
def delivered? : Arrival → Option (List Vote)
  | .bundle votes => if (Bundle.round votes).isOk then some votes else none
  | .undecodable => none

/-- The counts of an arrival. -/
def counts : Arrival → List Effect
  | .bundle votes => Gate.arrivalCounts votes
  | .undecodable => [.count .bundlesDropped 1]

end Arrival

structure Connection where
  reader : Frame.Reader
  /-- The connection was not given up. -/
  live : Bool

namespace Connection

def opened : Connection :=
  ⟨.empty, true⟩

/-- Takes in the next part of the stream. -/
def receive (connection : Connection) (bytes : Bytes) : Connection × List Arrival :=
  if connection.live then
    let reading := (connection.reader.receive bytes).read
    (⟨reading.reader, reading.defect.isNone⟩, reading.frames.map .ofFrame)
  else
    (connection, [])

/-- Takes in a stream that comes in parts. -/
def receiveAll (connection : Connection) : List Bytes → Connection × List Arrival
  | [] => (connection, [])
  | part :: rest =>
      let (next, first) := connection.receive part
      let (last, later) := next.receiveAll rest
      (last, first ++ later)

end Connection

end Quorum
