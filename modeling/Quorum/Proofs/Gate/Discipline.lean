import Quorum.Gate

/-! Disciplines: a property of the gate that every single step of an activity keeps, and effects
that it may have. Steps of several activities may come in any order, so that a discipline that
each of them obeys holds in every session.
-/

namespace Quorum.Gate

/-- What is asked of each step on a gate. -/
structure Discipline where
  keeps : Gate → Prop
  allows : Effect → Prop

namespace Activity

variable {discipline : Discipline} {α β : Type}

/-- From each gate with the property, every step keeps it and has allowed effects, whatever was
done in between; a value in the end is one with the second property.
-/
def Obeys (discipline : Discipline) (post : α → Prop) : Activity α → Prop
  | done value => post value
  | step act next =>
      ∀ gate, discipline.keeps gate →
        discipline.keeps (act gate).2.1
        ∧ (∀ effect ∈ (act gate).2.2, discipline.allows effect)
        ∧ Obeys discipline post (next (act gate).1)

-----------------------------------------------------------------------------------------
-- Activities from parts
-----------------------------------------------------------------------------------------

theorem obeys_pure {post : α → Prop} {value : α} (holds : post value)
    : Obeys discipline post (pure value) := holds

/-- An activity that obeys may go on with any that obeys for its values. -/
theorem Obeys.bind {middle : α → Prop} {post : β → Prop} {activity : Activity α}
    {continuation : α → Activity β} (first : Obeys discipline middle activity)
    (rest : ∀ value, middle value → Obeys discipline post (continuation value))
    : Obeys discipline post (activity >>= continuation) := by
  change Obeys discipline post (activity.bind continuation)
  induction activity with
  | done value => exact rest value first
  | step act next ih =>
      intro gate keeps
      obtain ⟨kept, allowed, later⟩ := first gate keeps
      exact ⟨kept, allowed, ih _ later⟩

theorem Obeys.discard {post : α → Prop} {activity : Activity α}
    (obeys : Obeys discipline post activity)
    : Obeys discipline (fun _ => True) (discard activity) :=
  obeys.bind fun _ _ => trivial

theorem obeys_perform {post : α → Prop} {act : Gate → α × Gate × List Effect}
    (sound : ∀ gate, discipline.keeps gate →
      discipline.keeps (act gate).2.1
      ∧ (∀ effect ∈ (act gate).2.2, discipline.allows effect)
      ∧ post (act gate).1)
    : Obeys discipline post (perform act) := sound

theorem Obeys.first {post : β → Prop} {act : Gate → α × Gate × List Effect}
    {next : α → Activity β} (obeys : Obeys discipline post (step act next))
    : Obeys discipline (fun value => Obeys discipline post (next value)) (perform act) := obeys

theorem obeys_observe {post : α → Prop} {view : Gate → α}
    (holds : ∀ gate, discipline.keeps gate → post (view gate))
    : Obeys discipline post (observe view) :=
  fun gate keeps => ⟨keeps, by simp, holds gate keeps⟩

theorem obeys_look (view : Gate → α) : Obeys discipline (fun _ => True) (observe view) :=
  obeys_observe fun _ _ => trivial

theorem obeys_modify {change : Gate → Gate}
    (sound : ∀ gate, discipline.keeps gate → discipline.keeps (change gate))
    : Obeys discipline (fun _ => True) (modify change) :=
  fun gate keeps => ⟨sound gate keeps, by simp, trivial⟩

theorem obeys_emit {effects : List Effect}
    (allowed : ∀ effect ∈ effects, discipline.allows effect)
    : Obeys discipline (fun _ => True) (emit effects) :=
  fun _ keeps => ⟨keeps, allowed, trivial⟩

/-- Without a break, the property is kept and all effects are allowed; by induction on the steps. -/
theorem Obeys.run {post : α → Prop} {activity : Activity α}
    (obeys : Obeys discipline post activity) {gate : Gate} (keeps : discipline.keeps gate)
    : discipline.keeps (activity.run gate).2.1
      ∧ (∀ effect ∈ (activity.run gate).2.2, discipline.allows effect)
      ∧ post (activity.run gate).1 := by
  induction activity generalizing gate with
  | done value => exact ⟨keeps, by simp [Activity.run], obeys⟩
  | step act next ih =>
      obtain ⟨kept, allowed, later⟩ := obeys gate keeps
      obtain ⟨kept_later, allowed_later, value⟩ := ih _ later kept
      exact ⟨kept_later, List.forall_mem_append.mpr ⟨allowed, allowed_later⟩, value⟩

/-- What all activities in a list have is kept where one that has it takes the place of another. -/
theorem forall_mem_replace {property : Activity Unit → Prop} {before after : List (Activity Unit)}
    {old new : Activity Unit} (all : ∀ activity ∈ before ++ old :: after, property activity)
    (also : property new)
    : ∀ activity ∈ before ++ new :: after, property activity := by
  rw [List.forall_mem_append, List.forall_mem_cons] at all ⊢
  exact ⟨all.1, also, all.2.2⟩

end Activity

-----------------------------------------------------------------------------------------
-- Sessions
-----------------------------------------------------------------------------------------

/-- What a gate can be asked to do. -/
inductive Request where
  | vote (candidate : Candidate) (electorate : Electorate)
  | switch (round : Round) (peers : List Peer)
  | deliver (votes : List Vote)
  | rebroadcast (task : Rebroadcast)
  | stop

/-- The work that a request asks for. The one who asks may drop its result. -/
def Request.activity (settings : Settings) : Request → Activity Unit
  | .vote candidate electorate => discard (Gate.vote settings candidate electorate)
  | .switch round peers => discard (Gate.switch round peers)
  | .deliver votes => discard (Gate.deliver settings votes)
  | .rebroadcast task => discard (Gate.rebroadcast task)
  | .stop => Gate.stop

/-- A gate, the activities under way, and all effects so far. -/
structure Session where
  gate : Gate
  underWay : List (Activity Unit)
  log : List Effect

namespace Session

/-- What happens in a session: a request comes in, or any activity under way does a step. -/
inductive Step (settings : Settings) (permits : Request → Prop) : Session → Session → Prop
  | ask {session : Session} (request : Request) (permitted : permits request)
    : Step settings permits session
        { session with underWay := request.activity settings :: session.underWay }
  | proceed {β : Type} {gate : Gate} {before after : List (Activity Unit)} {log : List Effect}
    (act : Gate → β × Gate × List Effect) (next : β → Activity Unit)
    : Step settings permits ⟨gate, before ++ .step act next :: after, log⟩
        ⟨(act gate).2.1, before ++ next (act gate).1 :: after, log ++ (act gate).2.2⟩

/-- The sessions that the permitted requests lead to, from a fresh gate on. -/
inductive Reachable (settings : Settings) (window : UInt64) (permits : Request → Prop)
    : Session → Prop
  | start : Reachable settings window permits ⟨.initial window, [], []⟩
  | next {session later : Session} (reachable : Reachable settings window permits session)
    (step : Step settings permits session later) : Reachable settings window permits later

/-- The gate has the property, the log is allowed, and all that is under way obeys. -/
structure Disciplined (discipline : Discipline) (session : Session) : Prop where
  gate : discipline.keeps session.gate
  log : ∀ effect ∈ session.log, discipline.allows effect
  underWay : ∀ activity ∈ session.underWay, activity.Obeys discipline fun _ => True

/-- Each step of a session keeps the discipline that all requests obey. -/
theorem Disciplined.step {discipline : Discipline} {settings : Settings}
    {permits : Request → Prop} {session later : Session}
    (disciplined : session.Disciplined discipline) (step : Step settings permits session later)
    (obey : ∀ request, permits request →
      (request.activity settings).Obeys discipline fun _ => True)
    : later.Disciplined discipline := by
  cases step with
  | ask request permitted =>
      refine ⟨disciplined.gate, disciplined.log, ?_⟩
      exact List.forall_mem_cons.mpr ⟨obey request permitted, disciplined.underWay⟩
  | @proceed β gate before after log act next =>
      have current := disciplined.underWay (.step act next) (by simp)
      obtain ⟨kept, allowed, rest⟩ := current gate disciplined.gate
      refine ⟨kept, ?_, ?_⟩
      · exact List.forall_mem_append.mpr ⟨disciplined.log, allowed⟩
      · exact Activity.forall_mem_replace disciplined.underWay rest

/-- A discipline that all permitted requests obey is kept throughout; by induction on the steps. -/
theorem Reachable.disciplined {discipline : Discipline} {settings : Settings} {window : UInt64}
    {permits : Request → Prop} {session : Session}
    (reachable : Reachable settings window permits session)
    (fresh : discipline.keeps (.initial window))
    (obey : ∀ request, permits request →
      (request.activity settings).Obeys discipline fun _ => True)
    : session.Disciplined discipline := by
  induction reachable with
  | start => exact ⟨fresh, by simp, by simp⟩
  | next _ step ih => exact ih.step step obey

-----------------------------------------------------------------------------------------
-- One request after the other
-----------------------------------------------------------------------------------------

theorem Reachable.run {settings : Settings} {window : UInt64} {permits : Request → Prop}
    {activity : Activity Unit} {gate : Gate} {others : List (Activity Unit)} {log : List Effect}
    (reachable : Reachable settings window permits ⟨gate, activity :: others, log⟩)
    : Reachable settings window permits
        ⟨(activity.run gate).2.1, .done () :: others, log ++ (activity.run gate).2.2⟩ := by
  induction activity generalizing gate log with
  | done value => simpa [Activity.run] using reachable
  | step act next ih =>
      have stepped := reachable.next (@Step.proceed _ _ _ gate [] others log act next)
      simpa [Activity.run] using ih _ stepped

end Session

/-- The gate after some requests, each of them done before the next one. -/
def after (settings : Settings) (window : UInt64) (requests : List Request) : Gate :=
  requests.foldl (fun gate request => ((request.activity settings).run gate).2.1)
    (.initial window)

/-- Requests may be done one after the other. -/
theorem exists_reachable_after (settings : Settings) (window : UInt64)
    {permits : Request → Prop} {requests : List Request}
    (permitted : ∀ request ∈ requests, permits request)
    : ∃ session, Session.Reachable settings window permits session
        ∧ session.gate = after settings window requests := by
  have general (session : Session)
      (reachable : Session.Reachable settings window permits session)
      : ∃ later, Session.Reachable settings window permits later
          ∧ later.gate
            = requests.foldl (fun gate request => ((request.activity settings).run gate).2.1)
                session.gate := by
    induction requests generalizing session with
    | nil => exact ⟨session, reachable, rfl⟩
    | cons request rest ih =>
        obtain ⟨first, others⟩ := List.forall_mem_cons.mp permitted
        exact ih others _ (reachable.next (.ask request first)).run
  exact general _ .start

end Quorum.Gate
