import Quorum.Agenda

/-! A service: background jobs that end after a common shutdown signal. Shutting down waits for
all of them, however they end.
-/

namespace Quorum

inductive JobKind where
  /-- Works at once. -/
  | immediate
  /-- Works from the signal on, and ends well. -/
  | patient
  /-- Works from the signal on, and ends with an error. -/
  | failing
  /-- Works from the signal on, and breaks down. -/
  | crashing
  deriving DecidableEq

/-- A job, and how long it works. -/
structure Job where
  kind : JobKind
  time : Nat

/-- A service with its jobs, by their positions. -/
structure Service where
  /-- The jobs that work. -/
  agenda : Agenda Nat
  /-- The jobs that have yet to begin, which they do when others have their turn. -/
  fresh : List (Nat × Job)
  /-- The jobs that wait for the signal. -/
  waiting : List (Nat × Job)
  signal : Bool

namespace Service

/-- A service with jobs in order. -/
def start (jobs : List Job) : Service where
  agenda := .empty
  fresh := jobs.zipIdx.map fun entry => (entry.2, entry.1)
  waiting := []
  signal := false

/-- Lets all jobs begin in order. Those that work from the signal on wait for it. -/
def begin (service : Service) : Service :=
  let (now, later) := service.fresh.partition fun entry =>
    service.signal || decide (entry.2.kind = .immediate)
  { service with
    agenda := now.foldl (fun agenda entry => agenda.add entry.2.time entry.1) service.agenda
    fresh := []
    waiting := service.waiting ++ later }

/-- The jobs that are done before a moment, in order. Those that end just then are still under
way, and at the first moment none has begun.
-/
def doneBefore (service : Service) (moment : Nat) : List Nat × Service :=
  if moment = 0 then ([], service)
  else
    let service := service.begin
    let (done, rest) := service.agenda.entries.partition fun entry => decide (entry.1 < moment)
    (done.map (·.2), { service with agenda := ⟨moment, rest⟩ })

/-- Gives the signal, on which the jobs that wait for it work. -/
def shutdown (service : Service) : Service :=
  { service with fresh := service.waiting ++ service.fresh, waiting := [], signal := true }.begin

/-- All jobs under way, in the order in which they will be done. -/
def remaining (service : Service) : List Nat :=
  service.agenda.entries.map (·.2)

end Service

end Quorum
