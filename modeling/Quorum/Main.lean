import Quorum.Command.Execution
import Quorum.Connection
import Quorum.Link
import Std.Async.DNS
import Std.Async.Signal
import Std.Async.TCP

/-! The program: commands on this machine, and a node on its network. -/

namespace Quorum.Program

open Std.Async Std.Net

/-! Files -/

def fileDefect : IO.Error → FileDefect
  | .noFileOrDirectory _ _ _ => .missing
  | .inappropriateType _ 21 _ => .directory
  | .inappropriateType _ _ _ => .notDirectory
  | error => .other (toString error)

def attempt {α : Type} (action : IO α) : IO (Except FileDefect α) := do
  match ← action.toBaseIO with
  | .ok value => return .ok value
  | .error error => return .error (fileDefect error)

def exists? (path : String) : IO Bool := do
  match ← attempt (IO.FS.readBinFile path) with
  | .error .missing | .error .notDirectory => return false
  | _ => return true

/-! The network -/

/-- The addresses of sockets for an address; a name is looked up. -/
def resolve (address : Address) : IO (List SocketAddress) := do
  let hosts : List IPAddr ←
    match address.host with
    | .v4 bytes =>
        let byte (index : Nat) := UInt8.ofNat (bytes.getD index 0)
        pure [.v4 (.ofParts (byte 0) (byte 1) (byte 2) (byte 3))]
    | .v6 groups _ => pure [.v6 ⟨Vector.ofFn fun index => UInt16.ofNat (groups.getD index 0)⟩]
    | .name text => return ← found (← (DNS.getAddrInfo text "").block)
  found hosts.toArray
where
  found (hosts : Array IPAddr) : IO (List SocketAddress) :=
    return hosts.toList.map fun
      | .v4 host => .v4 ⟨host, address.number⟩
      | .v6 host => .v6 ⟨host, address.number⟩

def listen (server : TCP.Socket.Server) (address : Address) : IO (Option AddressDefect) := do
  try
    match ← resolve address with
    | [] => return some .unknownHost
    | target :: _ =>
        server.bind target
        server.listen 1024
        return none
  catch error => return some (.other (toString error))

/-- The machine that the program runs on. -/
def machine (server : TCP.Socket.Server) : Machine IO where
  exists?
  read path := return (← attempt (IO.FS.readBinFile path)).map ByteArray.toList
  write path bytes := attempt (IO.FS.writeBinFile path ⟨bytes.toArray⟩)
  seed := return (← IO.getRandomBytes 32).toList
  listen := listen server
  print := IO.println

/-- Bundles that have arrived and were not handed on yet. -/
abbrev Inbox := IO.Ref (List (List Vote))

/-- Reads from a client until it hangs up or is given up. -/
partial def readAll (client : TCP.Socket.Client) (inbox : Inbox) (connection : Connection)
    : IO Unit := do
  if let some bytes ← (client.recv? 65536).block then
    let (next, arrivals) := connection.receive bytes.toList
    let bundles := arrivals.filterMap fun
      | .bundle votes => some votes
      | .undecodable => none
    inbox.modify (· ++ bundles)
    if next.live then
      readAll client inbox next

partial def acceptAll (server : TCP.Socket.Server) (inbox : Inbox) : IO Unit := do
  let client ← server.accept.block
  let _ ← IO.asTask (readAll client inbox .opened) .dedicated
  acceptAll server inbox

/-- The queue for an address, and the connection that the last message left open. -/
structure Outlet where
  link : IO.Ref Link
  connection : Task (Option TCP.Socket.Client)

def dial (text : String) : IO TCP.Socket.Client := do
  match Address.ofText text with
  | .error defect => throw (.userError defect.message)
  | .ok address =>
      match ← resolve address with
      | [] => throw (.userError AddressDefect.unknownHost.message)
      | target :: _ =>
          let client ← TCP.Socket.Client.mk
          (client.connect target).block
          client.noDelay
          return client

/-- Writes the message that waits longest, over the open connection or a new one. -/
def write (link : IO.Ref Link) (connection : Option TCP.Socket.Client)
    : IO (Option TCP.Socket.Client) := do
  let state ← link.get
  let some (message, rest) := state.take? | return connection
  link.modify fun current => { current with queue := current.queue.drop 1 }
  let some frame := Link.frame? message | return connection
  let client ←
    match connection with
    | some client => pure client
    | none => dial rest.address
  (client.send ⟨frame.toArray⟩).block
  return some client

/-- Queues a message for an address, to be written after those before it. -/
def send (outlets : List (String × Outlet)) (address : String) (message : Wire.Message)
    : IO (List (String × Outlet)) := do
  let outlet ←
    match outlets.lookup address with
    | some outlet => pure outlet
    | none => pure ⟨← IO.mkRef (.opened address), .pure none⟩
  match (← outlet.link.get).send message with
  | .error _ => return outlets
  | .ok _ =>
      outlet.link.modify fun link => { link with queue := link.queue ++ [message] }
      let connection ← BaseIO.mapTask
        (fun connection => (write outlet.link connection).catchExceptions fun _ => pure none)
        outlet.connection .dedicated
      return (address, { outlet with connection })
        :: outlets.filter fun entry => decide (entry.1 ≠ address)

/-- Runs a node until a signal comes: it handles the bundles that have arrived and whatever is due,
and sends what it is told to, a few times in a tick of the eye.
-/
partial def conduct (inbox : Inbox) (signal : AsyncTask Int) (started : Nat) (node : Node)
    (outlets : List (String × Outlet))
    : IO Unit := do
  unless ← IO.hasFinished signal do
    let bundles ← inbox.modifyGet fun bundles => (bundles, [])
    let (current, first) := node.runUntil ((← IO.monoMsNow) - started)
    let (informed, second) := bundles.foldl
      (fun (node, effects) votes =>
        let (_, next, more) := node.deliver votes
        (next, effects ++ more))
      (current, first)
    let (settled, third) := informed.settle
    let sent ← (second ++ third).foldlM
      (fun outlets effect =>
        match effect with
        | .send peer votes => send outlets peer.address (.ofVotes votes)
        | _ => pure outlets)
      outlets
    IO.sleep 5
    conduct inbox signal started settled sent

/-- Runs a node that listens, until it is interrupted. -/
def run (server : TCP.Socket.Server) (startup : Startup) : IO Unit := do
  let inbox ← IO.mkRef []
  let _ ← IO.asTask (acceptAll server inbox) .dedicated
  let signal ← (← Signal.Waiter.mk .sigint false).wait
  conduct inbox signal (← IO.monoMsNow) startup.node []
  IO.println "Shutting down node..."
  IO.println "Node stopped"

def usage : String :=
  "usage: keygen --out PATH [--algorithm NAME] [--force]\n       run [--config PATH] [--demo-blocks]"

end Quorum.Program

open Quorum in
def main (words : List String) : IO UInt32 := do
  match Command.ofWords words with
  | .error .help => IO.println Program.usage; return 0
  | .error .version => IO.println "quorum 0.1.0"; return 0
  | .error _ => IO.eprintln Program.usage; return 2
  | .ok command =>
      let server ← Std.Async.TCP.Socket.Server.mk
      match ← command.execute (Program.machine server) with
      | .error fault => IO.eprint fault.report; return 1
      | .ok none => return 0
      | .ok (some startup) => Program.run server startup; return 0
