import Quorum.Proofs.Gate.Run
import Quorum.Proofs.Gate.Stopping

/-! Courses. Among the work of others, an activity does its steps one after the other, each of them on
the gate that it finds. The moves of a path that have the number of an activity are its course.
-/

namespace Quorum.Gate

open Session (Move)

namespace Activity

variable {α β : Type} {activity rest : Activity α} {moves : List Move}

-----------------------------------------------------------------------------------------
-- Steps on the gates that are found
-----------------------------------------------------------------------------------------

/-- On gates that are meant, the activity comes to a value with the property. -/
def Gives (meant : Gate → Prop) (post : α → Prop) : Activity α → Prop
  | done value => post value
  | step act next => ∀ gate, meant gate → Gives meant post (next (act gate).1)

theorem gives_bind {meant : Gate → Prop} {post : β → Prop} (activity : Activity α)
    {continuation : α → Activity β} (gives : ∀ value, (continuation value).Gives meant post)
    : (activity >>= continuation).Gives meant post := by
  change (activity.bind continuation).Gives meant post
  induction activity with
  | done value => exact gives value
  | step act _ ih => exact fun gate _ => ih (act gate).1

/-- By the moves an activity comes to its rest. -/
inductive Course : Activity α → List Move → Activity α → Prop
  | rest (activity : Activity α) : Course activity [] activity
  | step {β : Type} {act : Gate → β × Gate × List Effect} {next : β → Activity α}
    {moves : List Move} {rest : Activity α} (number : Nat) (gate : Gate)
    (course : Course (next (act gate).1) moves rest)
    : Course (.step act next) (⟨number, gate, (act gate).2.1, (act gate).2.2⟩ :: moves) rest

namespace Course

theorem append {middle : Activity α} {more : List Move} (first : Course activity moves middle)
    (second : Course middle more rest)
    : Course activity (moves ++ more) rest := by
  induction first with
  | rest _ => exact second
  | step number gate _ ih => exact .step number gate (ih second)

theorem row (number count : Nat) (activity : Activity α) (gate : Gate)
    : Course activity (Move.row number count activity gate) (activity.walk count gate).1 := by
  induction count generalizing activity gate with
  | zero =>
      cases activity with
      | done _ | step _ _ => exact .rest _
  | succ count ih =>
      cases activity with
      | done _ => exact .rest _
      | step act next => exact .step number gate (ih _ _)

/-- The course of an activity that goes on with another one leads into the first or past it. -/
theorem bind_cases {continuation : α → Activity β} {rest : Activity β}
    (course : Course (activity >>= continuation) moves rest)
    : (∃ middle, Course activity moves middle ∧ rest = middle >>= continuation)
      ∨ ∃ value first second,
          Course activity first (.done value) ∧ Course (continuation value) second rest
          ∧ moves = first ++ second := by
  induction activity generalizing moves with
  | done value => exact .inr ⟨value, [], moves, .rest _, course, rfl⟩
  | step act next ih =>
      change Course (.step act fun result => next result >>= continuation) moves rest at course
      cases course with
      | rest _ => exact .inl ⟨_, .rest _, rfl⟩
      | step number gate course =>
          rcases ih _ course with ⟨middle, first, rfl⟩ | ⟨value, first, second, led, goes, rfl⟩
          · exact .inl ⟨middle, .step number gate first, rfl⟩
          · exact .inr ⟨value, _ :: first, second, .step number gate led, goes, rfl⟩

/-- To come to an end, an activity that goes on with another one comes to an end of both. -/
theorem bind_done {continuation : α → Activity β} {result : β}
    (course : Course (activity >>= continuation) moves (.done result))
    : ∃ value first second,
        Course activity first (.done value) ∧ Course (continuation value) second (.done result)
        ∧ moves = first ++ second := by
  rcases bind_cases course with ⟨middle, first, ends⟩ | past
  · cases middle with
    | done value =>
        have second : Course (continuation value) [] (.done result) :=
          ends ▸ .rest (continuation value)
        exact ⟨value, moves, [], first, second, (List.append_nil moves).symm⟩
    | step act next => cases ends
  · exact past

/-- A value that is given away as another one. -/
theorem of_map {give : α → β} {result : β}
    (course : Course (do return give (← activity)) moves (.done result))
    : ∃ value, Course activity moves (.done value) ∧ give value = result := by
  obtain ⟨value, first, second, led, goes, rfl⟩ := bind_done course
  cases goes
  exact ⟨value, (List.append_nil first).symm ▸ led, rfl⟩

theorem of_discard {rest : Activity Unit} (course : Course (discard activity) moves rest)
    : ∃ middle, Course activity moves middle ∧ rest = discard middle := by
  rcases bind_cases course with inside | ⟨value, first, second, led, goes, rfl⟩
  · exact inside
  · cases goes
    exact ⟨.done value, (List.append_nil first).symm ▸ led, rfl⟩

-----------------------------------------------------------------------------------------
-- First steps
-----------------------------------------------------------------------------------------

section

variable {act : Gate → α × Gate × List Effect} {continuation : α → Activity β} {ending : Activity β}

/-- Either nothing is done yet, or the first step is. -/
theorem perform_cases (course : Course (perform act >>= continuation) moves ending)
    : moves = [] ∧ ending = perform act >>= continuation
      ∨ ∃ move later,
          moves = move :: later ∧ move.after = (act move.before).2.1
          ∧ move.effects = (act move.before).2.2
          ∧ Course (continuation (act move.before).1) later ending := by
  cases course with
  | rest _ => exact .inl ⟨rfl, rfl⟩
  | step number gate course => exact .inr ⟨_, _, rfl, rfl, rfl, course⟩

/-- To come to an end, an activity does its first step. -/
theorem of_perform {value : β} (course : Course (perform act >>= continuation) moves (.done value))
    : ∃ move later,
        moves = move :: later ∧ move.after = (act move.before).2.1
        ∧ move.effects = (act move.before).2.2
        ∧ Course (continuation (act move.before).1) later (.done value) :=
  course.perform_cases.resolve_left fun nothing => nomatch nothing.2

end

-----------------------------------------------------------------------------------------
-- Rules and values along a course
-----------------------------------------------------------------------------------------

/-- On gates that are meant, all moves follow the rule that the activity heeds. -/
theorem heeds {meant : Gate → Prop} {rule : Gate → Gate → List Effect → Prop}
    (course : Course activity moves rest) (heeds : activity.Heeds meant rule)
    (found : ∀ move ∈ moves, meant move.before)
    : ∀ move ∈ moves, rule move.before move.after move.effects := by
  induction course with
  | rest _ => simp
  | step number gate _ ih =>
      obtain ⟨meets, later⟩ := List.forall_mem_cons.mp found
      obtain ⟨follows, goes⟩ := heeds gate meets
      exact List.forall_mem_cons.mpr ⟨follows, ih goes later⟩

/-- On gates that are meant, the value is one of those that the activity gives. -/
theorem gives {meant : Gate → Prop} {post : α → Prop} {value : α}
    (course : Course activity moves (.done value)) (gives : activity.Gives meant post)
    (found : ∀ move ∈ moves, meant move.before)
    : post value := by
  generalize ends : Activity.done value = rest at course
  induction course with
  | rest _ =>
      subst ends
      exact gives
  | step number gate _ ih =>
      obtain ⟨meets, later⟩ := List.forall_mem_cons.mp found
      exact ih (gives gate meets) later ends

end Course

end Activity

open Activity

-----------------------------------------------------------------------------------------
-- Entries into a round
-----------------------------------------------------------------------------------------

theorem phase_adopt (round : Round) (electorate : Electorate) (gate : Gate)
    : (gate.adopt round electorate).phase = gate.phase := by
  unfold adopt
  split <;> rfl

theorem stopped_adopt (round : Round) (electorate : Electorate) (gate : Gate)
    : (gate.adopt round electorate).stopped = gate.stopped := by
  unfold adopt
  split <;> rfl

/-- The move reaches nobody, and leaves the gate where it stands. -/
structure Session.Move.Inner (move : Move) : Prop where
  phase : move.after.phase = move.before.phase
  stopped : move.after.stopped = move.before.stopped
  silent : move.effects = []

theorem Session.Move.Inner.of_after {move : Move} {later : Gate} (after : move.after = later)
    (phase : later.phase = move.before.phase) (stopped : later.stopped = move.before.stopped)
    (silent : move.effects = [])
    : move.Inner :=
  ⟨after ▸ phase, after ▸ stopped, silent⟩

/-- An entry into a round that comes to its end does some moves that reach nobody, and then evaluates
the polls. It gives what it finds there, or it finds the gate stopped and does nothing more.
-/
theorem Activity.Course.of_enterRound {round : Round} {electorate : Electorate} {moves : List Move}
    {result : Except Fault (Option Outcome)}
    (course : (enterRound round electorate).Course moves (.done result))
    : ∃ moving evaluating last ruling,
        moves = moving ++ [evaluating, last] ∧ (∀ move ∈ moving ++ [evaluating], move.Inner)
        ∧ evaluating.before.book.evaluate round electorate = (evaluating.after.book, ruling)
        ∧ (result = .ok (ruling.map Ruling.outcome)
          ∨ result = .error .stopped ∧ last.before.stopped = true ∧ last.after = last.before
            ∧ last.effects = []) := by
  unfold enterRound at course
  obtain ⟨advancing, moves, rfl, after, silent, course⟩ := course.of_perform
  have advances : advancing.Inner := .of_after after rfl rfl silent
  obtain ⟨forgetting, moves, rfl, after, silent, course⟩ := course.of_perform
  have forgets : forgetting.Inner := .of_after after rfl rfl silent
  obtain ⟨adopting, moves, rfl, after, silent, course⟩ := course.of_perform
  have adopts : adopting.Inner := .of_after after (phase_adopt ..) (stopped_adopt ..) silent
  obtain ⟨evaluating, moves, rfl, after, silent, course⟩ := course.of_perform
  have evaluates : evaluating.Inner := .of_after after rfl rfl silent
  have book : evaluating.after.book = (evaluating.before.book.evaluate round electorate).1 :=
    congrArg Gate.book after
  generalize evaluated : evaluating.before.book.evaluate round electorate = ending at book course
  obtain ⟨_, ruling⟩ := ending
  subst book
  suffices ends
      : ∃ last, moves = [last]
          ∧ (result = .ok (ruling.map Ruling.outcome)
            ∨ result = .error .stopped ∧ last.before.stopped = true ∧ last.after = last.before
              ∧ last.effects = []) by
    obtain ⟨last, rfl, gives⟩ := ends
    refine ⟨[advancing, forgetting, adopting], evaluating, last, ruling, rfl, ?_, evaluated, gives⟩
    simp [advances, forgets, adopts, evaluates]
  match ruling with
  | none =>
      obtain ⟨entering, moves, rfl, -, -, course⟩ := course.of_perform
      cases course
      exact ⟨entering, rfl, .inl rfl⟩
  | some ⟨outcome, false⟩ =>
      obtain ⟨entering, moves, rfl, -, -, course⟩ := course.of_perform
      cases course
      exact ⟨entering, rfl, .inl rfl⟩
  | some ⟨outcome, true⟩ =>
      obtain ⟨recording, moves, rfl, after, silent, course⟩ := course.of_perform
      unfold recordSwitch at after silent course
      cases stopped : recording.before.stopped with
      | false =>
          rw [stopped] at course
          cases course
          exact ⟨recording, rfl, .inl rfl⟩
      | true =>
          rw [stopped] at after silent course
          cases course
          exact ⟨recording, rfl, .inr ⟨rfl, stopped, after, silent⟩⟩

-----------------------------------------------------------------------------------------
-- The moves of one activity
-----------------------------------------------------------------------------------------

namespace Session

/-- The activity under way with a number. -/
def activity? (session : Session) (number : Nat) : Option (Activity Unit) :=
  session.underWay.reverse[number]?

/-- Begins an activity. -/
def begin (activity : Activity Unit) (session : Session) : Session :=
  { session with underWay := activity :: session.underWay }

/-- The moves with a number. -/
def own (number : Nat) (moves : List Move) : List Move :=
  moves.filter fun move => decide (move.number = number)

theorem mem_own {number : Nat} {moves : List Move} {move : Move}
    : move ∈ own number moves ↔ move ∈ moves ∧ move.number = number := by
  simp [own]

theorem own_append (number : Nat) (first second : List Move)
    : own number (first ++ second) = own number first ++ own number second :=
  List.filter_append first second

theorem own_cons_self (move : Move) (moves : List Move)
    : own move.number (move :: moves) = move :: own move.number moves :=
  List.filter_cons_of_pos (by simp)

theorem number_of_mem_row {α : Type} {number count : Nat} {activity : Activity α} {gate : Gate}
    {move : Move} (member : move ∈ Move.row number count activity gate)
    : move.number = number := by
  induction count generalizing activity gate with
  | zero =>
      cases activity with
      | done _ | step _ _ => cases member
  | succ count ih =>
      cases activity with
      | done _ => cases member
      | step act next =>
          rcases List.mem_cons.mp member with rfl | later
          · rfl
          · exact ih later

theorem own_row {α : Type} (number count : Nat) (activity : Activity α) (gate : Gate)
    : own number (Move.row number count activity gate) = Move.row number count activity gate :=
  List.filter_eq_self.mpr fun _ member => decide_eq_true (number_of_mem_row member)

theorem own_row_of_ne {α : Type} {number other : Nat} (differ : other ≠ number) (count : Nat)
    (activity : Activity α) (gate : Gate)
    : own number (Move.row other count activity gate) = [] :=
  List.filter_eq_nil_iff.mpr fun _ member same =>
    differ ((number_of_mem_row member).symm.trans (of_decide_eq_true same))

section

variable {gate later : Gate} {before after : List (Activity Unit)} {entry other : Activity Unit}
  {log effects : List Effect}

theorem activity?_length
    : activity? ⟨gate, before ++ entry :: after, log⟩ after.length = some entry := by
  simp [activity?]

theorem activity?_of_ne {number : Nat} (differ : number ≠ after.length)
    : activity? ⟨later, before ++ other :: after, effects⟩ number
      = activity? ⟨gate, before ++ entry :: after, log⟩ number := by
  have replaced
      : (before ++ other :: after).reverse
        = (before ++ entry :: after).reverse.set after.length other := by
    simp
  rw [activity?, replaced, List.getElem?_set_ne (Ne.symm differ)]
  rfl

theorem activity?_begin {session : Session} {number : Nat} (activity : Activity Unit)
    (found : session.activity? number = some entry)
    : (session.begin activity).activity? number = some entry := by
  obtain ⟨bound, -⟩ := List.getElem?_eq_some_iff.mp found
  rw [activity?, begin, List.reverse_cons, List.getElem?_append_left bound]
  exact found

theorem activity?_begin_length (session : Session) (activity : Activity Unit)
    : (session.begin activity).activity? session.underWay.length = some activity := by
  simp [activity?, begin]

end

variable {settings : Settings} {permits : Request → Prop} {session later : Session}
  {moves : List Move}

/-- A step takes the course of its own activity one move further, and no other one. -/
theorem course_proceed {β : Type} {gate : Gate} {before after : List (Activity Unit)}
    {log : List Effect} {act : Gate → β × Gate × List Effect} {next : β → Activity Unit}
    {number : Nat} {activity rest : Activity Unit}
    (found : activity? ⟨gate, before ++ .step act next :: after, log⟩ number = some rest)
    (course : activity.Course (own number moves) rest)
    : ∃ left,
        activity? ⟨(act gate).2.1, before ++ next (act gate).1 :: after, log ++ (act gate).2.2⟩ number
          = some left
        ∧ activity.Course
            (own number (moves ++ [⟨after.length, gate, (act gate).2.1, (act gate).2.2⟩])) left := by
  rw [own_append]
  by_cases turn : after.length = number
  · subst turn
    obtain rfl := Option.some.inj (found.symm.trans activity?_length)
    refine ⟨_, activity?_length, course.append ?_⟩
    rw [own, List.filter_cons_of_pos (by simp), List.filter_nil]
    exact .step _ gate (.rest _)
  · refine ⟨rest, (activity?_of_ne (Ne.symm turn)).trans found, ?_⟩
    rw [show own number [_] = [] from List.filter_cons_of_neg (by simpa using turn), List.append_nil]
    exact course

/-- The moves of an activity under way are its course; by induction on the path. -/
theorem Path.course (path : Path settings permits session moves later) {number : Nat}
    {activity : Activity Unit} (begun : session.activity? number = some activity)
    : ∃ rest, later.activity? number = some rest ∧ activity.Course (own number moves) rest := by
  induction path with
  | start => exact ⟨activity, begun, .rest activity⟩
  | ask _ request _ ih =>
      obtain ⟨rest, found, course⟩ := ih
      exact ⟨rest, activity?_begin _ found, course⟩
  | proceed act next _ ih =>
      obtain ⟨rest, found, course⟩ := ih
      exact course_proceed found course

/-- The course of work that is begun, whose result is dropped. -/
theorem Path.course_begin {α : Type} {activity : Activity α}
    (path : Path settings permits (session.begin (discard activity)) moves later)
    : ∃ rest,
        later.activity? session.underWay.length = some (discard rest)
        ∧ activity.Course (own session.underWay.length moves) rest := by
  obtain ⟨_, found, course⟩ := path.course (activity?_begin_length session (discard activity))
  obtain ⟨rest, led, rfl⟩ := course.of_discard
  exact ⟨rest, found, led⟩

/-- From a fresh session on, each move belongs to an activity that was asked for, and the moves of
such an activity are its course; by induction on the path.
-/
theorem Path.courses {window : UInt64}
    (path : Path settings permits ⟨.initial window, [], []⟩ moves later)
    : (∀ move ∈ moves, move.number < later.underWay.length)
      ∧ ∀ number < later.underWay.length, ∃ request rest,
          permits request ∧ later.activity? number = some rest
          ∧ (request.activity settings).Course (own number moves) rest := by
  induction path with
  | start => exact ⟨by simp, by simp⟩
  | @ask moves later path request permitted ih =>
      obtain ⟨belong, courses⟩ := ih
      refine ⟨fun move member => Nat.lt_succ_of_lt (belong move member), fun number bound => ?_⟩
      rcases Nat.lt_succ_iff_lt_or_eq.mp bound with older | rfl
      · obtain ⟨asked, rest, fine, found, course⟩ := courses number older
        exact ⟨asked, rest, fine, activity?_begin _ found, course⟩
      · refine ⟨request, _, permitted, activity?_begin_length later _, ?_⟩
        -- No move has the number of the activity that was only asked for.
        have nothing : own later.underWay.length moves = [] :=
          List.filter_eq_nil_iff.mpr fun move member same =>
            absurd (of_decide_eq_true same) (Nat.ne_of_lt (belong move member))
        rw [nothing]
        exact .rest _
  | proceed act next _ ih =>
      obtain ⟨belong, courses⟩ := ih
      constructor
      · refine List.forall_mem_append.mpr ⟨fun move member => ?_, ?_⟩
        · simpa using belong move member
        · exact List.forall_mem_singleton.mpr (by simp; omega)
      · intro number bound
        obtain ⟨request, rest, fine, found, course⟩ := courses number (by simpa using bound)
        obtain ⟨left, found, course⟩ := course_proceed found course
        exact ⟨request, left, fine, found, course⟩

/-- What is asked for may do some steps in a row at once. -/
theorem Path.asked (count : Nat) (path : Path settings permits session moves later)
    (request : Request) (permitted : permits request)
    : let walked := (request.activity settings).walk count later.gate
      Path settings permits session
        (moves
          ++ Move.row later.underWay.length count (request.activity settings) later.gate)
        ⟨walked.2.1, walked.1 :: later.underWay, later.log ++ walked.2.2⟩ :=
  (path.ask request permitted).row count []

/-- A stop may fall in after some steps of an activity. -/
theorem exists_path_stopped (permitted : permits .stop) (session : Session)
    (activity : Activity Unit) (count more : Nat)
    : let number := session.underWay.length
      let begun := activity.walk count session.gate
      let ended := begun.1.walk more begun.2.1.halted
      ∃ moves later,
        Path settings permits (session.begin activity) moves later
        ∧ own number moves
          = Move.row number count activity session.gate
            ++ Move.row number more begun.1 begun.2.1.halted
        ∧ later.gate = ended.2.1 ∧ later.log = session.log ++ begun.2.2 ++ ended.2.2 := by
  intro number begun ended
  have asked
      : Path settings permits (session.begin activity) []
          ⟨session.gate, [] ++ activity :: session.underWay, session.log⟩ := .start
  have halted := ((asked.row count []).ask .stop permitted).row 1 []
  have path := halted.row more [.done ()]
  refine ⟨_, _, path, ?_, rfl, ?_⟩
  · have other : session.underWay.length + 1 ≠ number := Nat.succ_ne_self _
    rw [own_append, own_append, own_append, own_row, own_row]
    simp only [List.nil_append, List.length_cons, own_row_of_ne other, List.append_nil]
    rfl
  · simp only [List.append_assoc]
    rfl

end Session

end Quorum.Gate
