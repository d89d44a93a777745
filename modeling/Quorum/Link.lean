import Quorum.Counters
import Quorum.Frame
import Quorum.Wire

/-! Outbound links: a bounded queue of messages for an address, which a writer empties. -/

namespace Quorum

structure Link where
  address : String
  /-- The messages that wait for the writer. -/
  queue : List Wire.Message
  /-- There is no writer any more. -/
  closed : Bool

namespace Link

/-- The most messages that wait. -/
def capacity : Nat :=
  1024

def opened (address : String) : Link :=
  ⟨address, [], false⟩

/-- Queues a message, if the queue has room. -/
def send (link : Link) (message : Wire.Message) : Except Fault Link :=
  if link.closed then .error (.network (.closed link.address))
  else if link.queue.length < capacity then .ok { link with queue := link.queue ++ [message] }
  else .error (.network (.full link.address))

/-- Takes out the message that waits longest. -/
def take? (link : Link) : Option (Wire.Message × Link) :=
  match link.queue with
  | [] => none
  | message :: queue => some (message, { link with queue })

/-- Queues a message some times, up to the first failure, which is given with its index. -/
def sendTimes (link : Link) (message : Wire.Message) (sent : Nat)
    : Nat → Link × Nat × Option Fault
  | 0 => (link, sent, none)
  | count + 1 =>
      match link.send message with
      | .error fault => (link, sent, some fault)
      | .ok next => next.sendTimes message (sent + 1) count

/-- The frame of a message, if it can be written. -/
def frame? (message : Wire.Message) : Option Bytes :=
  (Frame.encode message.encode).toOption

/-- Writes the queue to a peer: what it gets, and how many messages are lost. A message that
cannot be written is dropped, and so are all where the peer cannot be reached.
-/
def flush (link : Link) (reachable : Bool) : Link × Bytes × Nat :=
  let frames := if reachable then link.queue.filterMap frame? else []
  ({ link with queue := [] }, frames.flatten, link.queue.length - frames.length)

end Link

end Quorum
