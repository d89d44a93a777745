import Quorum.Bytes
import Quorum.Text.Json
import Quorum.Word

/-! Named counters, which only grow. -/

namespace Quorum

/-- The counters that the consensus keeps. -/
inductive Counter where
  | bundlesReceived
  | bundlesDropped
  | duplicateVotes
  | equivocations
  | failedSends
  | commits
  | rejects
  | nothings
  | futures
  deriving DecidableEq

def Counter.name : Counter → String
  | .bundlesReceived => "yac.bundles.received"
  | .bundlesDropped => "yac.bundles.dropped"
  | .duplicateVotes => "yac.votes.duplicate"
  | .equivocations => "yac.votes.equivocation"
  | .failedSends => "yac.send.failed"
  | .commits => "yac.outcomes.commit"
  | .rejects => "yac.outcomes.reject"
  | .nothings => "yac.outcomes.nothing"
  | .futures => "yac.outcomes.future"

/-- Counters by name, ascending by the bytes of the names. -/
structure Counters where
  entries : List (String × UInt64)

namespace Counters

def empty : Counters :=
  ⟨[]⟩

/-- The value of a counter; one that was never used has zero. -/
def get (counters : Counters) (name : String) : UInt64 :=
  ((counters.entries.find? (·.1 = name)).map (·.2)).getD 0

def size (counters : Counters) : Nat :=
  counters.entries.length

def set (name : String) (value : UInt64) : List (String × UInt64) → List (String × UInt64)
  | [] => [(name, value)]
  | entry :: rest =>
      if entry.1 = name then (name, value) :: rest
      else if Bytes.ofText name < Bytes.ofText entry.1 then (name, value) :: entry :: rest
      else entry :: set name value rest

/-- Adds to a counter, and creates it where there is none. -/
def add (counters : Counters) (name : String) (amount : UInt64) : Except Overflow Counters := do
  let value ← Word.add (counters.get name) amount
  return ⟨set name value counters.entries⟩

/-- The counters as a JSON object without spaces. -/
def json (counters : Counters) : String :=
  let fields := counters.entries.map fun entry => Text.jsonText entry.1 ++ ":" ++ toString entry.2
  "\x7b" ++ ",".intercalate fields ++ "\x7d"

end Counters

end Quorum
