import Quorum.Address
import Quorum.Command
import Quorum.Node
import Quorum.Config.Document
import Quorum.Proposal

/-! What commands do with the machine that they run on, and what they report. -/

namespace Quorum

/-- Why a command fails. -/
inductive CommandFault where
  /-- The file is there already. -/
  | present (path : String)
  | refused (fault : Fault)
  | address (defect : AddressDefect)
  deriving DecidableEq

namespace CommandFault

def message : CommandFault → String
  | .present path => s!"{path} exists, pass --force to overwrite"
  | .refused fault => fault.message
  | .address defect => defect.message

/-- What lies behind a fault. -/
def cause? : CommandFault → Option String
  | .refused (.file defect) => some defect.message
  | _ => none

/-- The lines that report a fault. -/
def report (fault : CommandFault) : String :=
  let cause :=
    match fault.cause? with
    | some cause => "\n\nCaused by:\n    " ++ cause
    | none => ""
  "Error: " ++ fault.message ++ cause ++ "\n"

end CommandFault

/-- How a machine does what commands ask for. -/
structure Machine (m : Type → Type) where
  exists? : String → m Bool
  read : String → m (Except FileDefect Bytes)
  write : String → Bytes → m (Except FileDefect Unit)
  /-- Random bytes for a seed. -/
  seed : m Bytes
  /-- Starts to listen, or says why it cannot. -/
  listen : Address → m (Option AddressDefect)
  print : String → m Unit

/-- A node that is ready to run, and listens. -/
structure Startup where
  config : Config
  node : Node

namespace Command

variable {m : Type → Type} [Monad m]

/-- Goes on with the value of a result. -/
def require {ε α : Type} (refuse : ε → CommandFault) (result : Except ε α)
    : ExceptT CommandFault m α :=
  ExceptT.mk (pure (result.mapError refuse))

/-- Makes a key file, and prints the public key. A file that is there is replaced only by force. -/
def generate (machine : Machine m) (out name : String) (force : Bool)
    : ExceptT CommandFault m Unit := do
  let algorithm ← require .refused (Algorithm.ofOption name)
  if (← machine.exists? out) && !force then
    throw (.present out)
  let keypair ← require .refused (Keypair.ofSeed algorithm (← machine.seed))
  require (.refused ∘ .file) (← machine.write out (Bytes.ofText keypair.text))
  machine.print keypair.publicKey.hex

/-- Reads the configuration and the key of a node, and starts to listen. -/
def startup (machine : Machine m) (path : String) (demoBlocks : Bool)
    : ExceptT CommandFault m Startup := do
  let config ← require .refused (Config.ofFile path (← machine.read path))
  let propose := if demoBlocks then Proposal.demo else Proposal.empty
  let node ← require .refused
    (Node.ofConfig config propose (← machine.read config.node.keyFile))
  let address ← require .address (Address.ofText config.node.bind)
  if let some defect ← machine.listen address then
    throw (.address defect)
  return ⟨config, node⟩

/-- Executes a command. Running a node leaves it ready to run. -/
def execute (machine : Machine m) : Command → m (Except CommandFault (Option Startup))
  | .keygen out algorithm force => do
      return (← (generate machine out algorithm force).run).map fun _ => none
  | .run path demoBlocks => do
      return (← (startup machine path demoBlocks).run).map some

end Command

end Quorum
