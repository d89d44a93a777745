import Quorum.Proofs.Gate.Debts

/-! The handover of blocks. The call that decides a round hands over the block of the commit, unless
it is overtaken: it finds that the gate was stopped meanwhile, or that it is past the round. No other
call makes up for that, though the commit is stored, given to switches and sent to peers as any other.
-/

namespace Quorum.Gate

open Activity
open Session (Move own activity? Path Ordered Soon)

-----------------------------------------------------------------------------------------
-- Rounds are decided once
-----------------------------------------------------------------------------------------

/-- A round that is decided is not decided again after that. -/
theorem Session.Move.Freezes.not_again {first second : Move} {round : Round}
    {outcome other : Outcome} (freezes : first.Freezes round outcome)
    (onward : first.after.book.Grows second.before.book)
    (grows : second.before.book.Grows second.after.book) (poised : second.after.Poised)
    : ¬ second.Freezes round other := by
  rintro ⟨undecided, known⟩
  have closed : first.after.book.Closed round :=
    .inr (Option.isSome_iff_exists.mpr ⟨outcome, freezes.2⟩)
  rcases onward.closed closed with expired | frozen
  · exact poised.trimmed.not_expired_of_decision known (grows.expired expired)
  · exact absurd undecided (Option.isSome_iff_ne_none.mp frozen)

section

variable {earlier rest : List Move} {origin other : Move} {last : Gate} {round : Round}
  {outcome another : Outcome}

/-- One move alone decides a round. -/
theorem Session.Ordered.freezes_once (ordered : Ordered (earlier ++ origin :: rest) last)
    (freezes : origin.Freezes round outcome) (freezes' : other.Freezes round another)
    (member : other ∈ earlier ++ origin :: rest)
    : other ∉ earlier ∧ other ∉ rest := by
  obtain ⟨-, within, across⟩ := List.pairwise_append.mp ordered.pairwise
  obtain ⟨onward, -⟩ := List.pairwise_cons.mp within
  have inside : origin ∈ earlier ++ origin :: rest := by simp
  constructor
  · intro before
    exact freezes'.not_again (across other before origin (by simp)) (ordered.grows origin inside)
      (ordered.poised origin inside).2 freezes
  · intro after
    exact freezes.not_again (onward other after) (ordered.grows other member)
      (ordered.poised other member).2 freezes'

theorem Session.Ordered.eq_of_freezes (ordered : Ordered (earlier ++ origin :: rest) last)
    (freezes : origin.Freezes round outcome) (freezes' : other.Freezes round another)
    (member : other ∈ earlier ++ origin :: rest)
    : other = origin := by
  obtain ⟨before, after⟩ := ordered.freezes_once freezes freezes' member
  rcases List.mem_append.mp member with inside | inside
  · exact absurd inside before
  · exact (List.mem_cons.mp inside).resolve_right after

end

/-- The gate holds the outcome before or after one of the moves. -/
def Session.Held (moves : List Move) (round : Round) (outcome : Outcome) : Prop :=
  ∃ move ∈ moves,
    move.before.book.decision round = some outcome ∨ move.after.book.decision round = some outcome

/-- What becomes of a block once an activity has decided its round, by the moves of the activity
after that.
-/
inductive Session.Handover (later : Session) (moves : List Move) (number : Nat) (rest : List Move)
    (block : Candidate) (round : Round) : Prop
  | handed (soon : Soon (fun move => (block, round) ∈ commits move.effects) rest)
  /-- When the activity looks, the gate is stopped or past the round. -/
  | overtaken
    (soon : Soon (fun move => move.before.stopped = true ∨ round < move.before.book.current) rest)
    (never : ∀ move ∈ moves, ∀ other, (other, round) ∉ commits move.effects)
  | pending (looks : ∀ look ∈ rest, look.Looks)
    (ongoing : ∃ activity, later.activity? number = some activity ∧ ∀ value, activity ≠ .done value)
    (never : ∀ move ∈ moves, ∀ other, (other, round) ∉ commits move.effects)

section

variable {settings : Settings} {window : UInt64} {permits : Request → Prop} {later : Session}
  {moves : List Move} {round : Round} {outcome : Outcome}

/-- A decision that is held at any time was reached by one of the moves; by induction on the path.
-/
theorem Session.Path.exists_freezes
    (path : Path settings permits ⟨.initial window, [], []⟩ moves later)
    (known : later.gate.book.decision round = some outcome ∨ Held moves round outcome)
    : ∃ origin ∈ moves, origin.Freezes round outcome := by
  induction path with
  | start =>
      rcases known with known | ⟨_, member, -⟩
      · cases known
      · cases member
  | ask _ _ _ ih => exact ih known
  | @proceed β moves gate before after log act next path ih =>
      have ordered := (path.proceed act next).ordered
      let last : Move := ⟨after.length, gate, (act gate).2.1, (act gate).2.2⟩
      have inside : last ∈ moves ++ [last] := by simp
      have earlier (known : gate.book.decision round = some outcome ∨ Held moves round outcome)
          : ∃ origin ∈ moves ++ [last], origin.Freezes round outcome := by
        obtain ⟨origin, member, freezes⟩ := ih known
        exact ⟨origin, List.mem_append_left _ member, freezes⟩
      have reached (known : last.after.book.decision round = some outcome)
          : ∃ origin ∈ moves ++ [last], origin.Freezes round outcome := by
        cases before : gate.book.decision round with
        | none => exact ⟨last, inside, before, known⟩
        | some held =>
            have kept := (ordered.poised last inside).2.trimmed.not_expired_of_decision known
            have same := (ordered.grows last inside).decision kept before
            obtain rfl := Option.some.inj (same.symm.trans known)
            exact earlier (.inl before)
      rcases known with known | ⟨move, member, known⟩
      · exact reached known
      · rcases List.mem_append.mp member with older | same
        · exact earlier (.inr ⟨move, older, known⟩)
        · obtain rfl := List.mem_singleton.mp same
          exact known.elim (fun known => earlier (.inl known)) reached

/-- A block is handed over by an activity only after it has decided the round. -/
theorem Session.Path.handed_after
    (path : Path settings permits ⟨.initial window, [], []⟩ moves later) {move : Move}
    (member : move ∈ moves) {block : Candidate}
    (handed : (block, round) ∈ commits move.effects)
    : ∃ before origin after outcome,
        own move.number moves = before ++ origin :: after ∧ move ∈ after
        ∧ origin.Freezes round outcome := by
  obtain ⟨belong, courses⟩ := path.courses
  obtain ⟨request, rest, -, -, course⟩ := courses move.number (belong move member)
  have mine : move ∈ own move.number moves := Session.mem_own.mpr ⟨member, rfl⟩
  rcases course.incurred (request.composed settings).settles mine handed with ⟨_, none, -⟩ | found
  · cases none
  · exact found

section

variable {earlier rest : List Move} {origin : Move} {last : Gate}

/-- Where the activity that decided a round hands over no block of it afterwards, none does at all.
-/
theorem Session.Path.unhanded
    (path : Path settings permits ⟨.initial window, [], []⟩ (earlier ++ origin :: rest) later)
    (freezes : origin.Freezes round outcome)
    (kept : ∀ move ∈ own origin.number rest, ∀ block, (block, round) ∉ commits move.effects)
    : ∀ move ∈ earlier ++ origin :: rest, ∀ block, (block, round) ∉ commits move.effects := by
  intro move member block handed
  obtain ⟨before, first, after, another, split, follows, freezes'⟩ := path.handed_after member handed
  have mine : first ∈ own move.number (earlier ++ origin :: rest) := by simp [split]
  obtain ⟨inside, number⟩ := Session.mem_own.mp mine
  obtain rfl := path.ordered.eq_of_freezes freezes freezes' inside
  -- The move that decides the round occurs once, so that both lists are split at the same place.
  obtain ⟨fresh, fresh'⟩ := path.ordered.freezes_once freezes freezes inside
  have unseen {others : List Move} (absent : first ∉ others) : first ∉ own first.number others :=
    fun member => absent (Session.mem_own.mp member).1
  rw [← number, Session.own_append, Session.own_cons_self] at split
  obtain ⟨-, -, rfl⟩ := (List.append_cons_inj_of_notMem (unseen fresh) (unseen fresh')).mp split
  exact kept move follows block handed

/-- An activity without a debt hands over no block of a round that was decided before. -/
theorem Session.Ordered.settled_course {α : Type}
    (ordered : Ordered (earlier ++ origin :: rest) last)
    (freezes : origin.Freezes round outcome) {activity ending : Activity α} {others : List Move}
    (course : activity.Course others ending) (settles : activity.Settles none)
    (later : ∀ move ∈ others, move ∈ rest)
    : ∀ move ∈ others, ∀ block, (block, round) ∉ commits move.effects := by
  intro move member block handed
  rcases course.incurred settles member handed with ⟨_, none, -⟩ | found
  · cases none
  · obtain ⟨_, again, _, _, rfl, -, freezes'⟩ := found
    have after : again ∈ rest := later again (by simp)
    have inside : again ∈ earlier ++ origin :: rest := by simp [after]
    exact (ordered.freezes_once freezes freezes' inside).2 after

/-- The activity that has decided a round for a block hands it over, unless it is overtaken. -/
theorem Session.Path.handover
    (path : Path settings permits ⟨.initial window, [], []⟩ (earlier ++ origin :: rest) later)
    (freezes : origin.Freezes round outcome) (commit : outcome.kind = .commit)
    : ∃ block,
        outcome.winner = some block
        ∧ Handover later (earlier ++ origin :: rest) origin.number (own origin.number rest) block
            round := by
  have ordered := path.ordered
  have inside : origin ∈ earlier ++ origin :: rest := by simp
  obtain ⟨belong, courses⟩ := path.courses
  obtain ⟨request, ending, -, found, course⟩ := courses origin.number (belong origin inside)
  have split
      : own origin.number (earlier ++ origin :: rest)
        = own origin.number earlier ++ origin :: own origin.number rest := by
    rw [Session.own_append, Session.own_cons_self]
  obtain ⟨rfl, winner, middle, course, settles⟩ :=
    course.indebted (request.composed settings).settles split freezes
  obtain ⟨block, winner⟩ := winner commit
  refine ⟨block, winner, ?_⟩
  have onward (move : Move) (member : move ∈ own origin.number rest) : move ∈ rest :=
    (Session.mem_own.mp member).1
  have idle (look : Move) (looks : look.Looks) (other : Candidate)
      : (other, outcome.round) ∉ commits look.effects := by
    simp [looks.2, commits]
  rcases course.due settles with ⟨looks, ongoing⟩ | ⟨looks, move, others, apart, quiet, settled⟩
  · have kept := path.unhanded freezes fun look member => idle look (looks look member)
    exact .pending looks ⟨ending, found, ongoing⟩ kept
  · obtain ⟨pays | ⟨drops, lost⟩, middle, course, settles⟩ := settled
    · have block : (block, outcome.round) ∈ commits move.effects :=
        pays ▸ Outcome.mem_blocks.mpr ⟨commit, winner, rfl⟩
      exact .handed ⟨looks, move, others, apart, quiet, block⟩
    · have reached : outcome.round ≤ move.before.book.current := by
        have first := (ordered.poised origin inside).2.decided freezes.2
        obtain ⟨across, -⟩ := List.pairwise_cons.mp (List.pairwise_append.mp ordered.pairwise).2.1
        exact Round.le_trans first (across move (onward move (by simp [apart]))).current
      have past : move.before.stopped = true ∨ outcome.round < move.before.book.current :=
        lost.imp_right (Round.lt_of_le_of_ne reached)
      refine .overtaken ⟨looks, move, others, apart, quiet, past⟩ (path.unhanded freezes ?_)
      have settled := ordered.settled_course freezes course settles fun other member =>
        onward other (by simp [apart, member])
      rw [apart]
      refine List.forall_mem_append.mpr ⟨fun look member => idle look (quiet look member), ?_⟩
      exact List.forall_mem_cons.mpr ⟨fun other => by simp [drops], settled⟩

end

end

-----------------------------------------------------------------------------------------
-- Decisions that are told
-----------------------------------------------------------------------------------------

/-- A switch gives what the gate holds of its round. -/
theorem Activity.Course.held_of_switch {moves : List Move} {round : Round} {peers : List Peer}
    {outcome : Outcome}
    (course : (switch round peers).Course moves (.done (.ok (some outcome))))
    : Session.Held moves round outcome := by
  unfold switch at course
  obtain ⟨look, moves, rfl, -, -, course⟩ := course.of_perform
  split at course
  · cases course
  cases arranged : Roster.ofPeers peers with
  | error fault =>
      rw [arranged] at course
      cases course
  | ok roster =>
      rw [arranged] at course
      obtain ⟨moving, evaluating, last, ruling, rfl, -, evaluated, gives | ⟨gives, -⟩⟩ :=
        course.of_enterRound
      · have known := PollBook.decision_of_evaluate evaluated
        rw [← Except.ok.inj gives] at known
        exact ⟨evaluating, by simp, .inr known⟩
      · cases gives

/-- The step sends nothing but the votes of a decision of the round on one of the gates. -/
def Quotes (round : Round) (found : List Gate) (_ _ : Gate) (effects : List Effect) : Prop :=
  ∀ peer votes, .send peer votes ∈ effects →
    ∃ gate ∈ found, ∃ outcome, gate.book.decision round = some outcome ∧ outcome.votes = votes

section

variable {settings : Settings} {round : Round} {bundle : List Vote} {found : List Gate}

theorem quotes_of_inward {gate later : Gate} {effects : List Effect}
    (inward : ∀ effect ∈ effects, effect.Inward)
    : Quotes round found gate later effects :=
  fun _ _ sent => (inward _ sent).elim

theorem quotes_observe {α β : Type} {view : Gate → α} {continuation : α → Activity β}
    (rest
      : ∀ gate ∈ found, (continuation (view gate)).Heeds (· ∈ found) (Quotes round found))
    : (observe view >>= continuation).Heeds (· ∈ found) (Quotes round found) :=
  heeds_observe_bind (fun _ => quotes_of_inward (by simp)) rest

theorem quotes_answer (votes : List Vote)
    : (answer round votes).Heeds (· ∈ found) (Quotes round found) := by
  unfold answer
  refine quotes_observe fun gate member => ?_
  cases known : gate.book.decision round with
  | none => exact heeds_pure _
  | some decision =>
      refine quotes_observe fun later _ => ?_
      cases later.electorate with
      | none => exact heeds_pure _
      | some electorate =>
          simp only
          split
          · exact heeds_pure _
          · refine heeds_perform fun sending _ peer votes sent => ?_
            split at sent
            · cases sent
            · obtain ⟨_, -, same⟩ := List.mem_map.mp sent
              exact ⟨gate, member, decision, known, (Effect.send.inj same).2⟩

theorem quotes_report (outcome : Outcome)
    : (report outcome).Heeds (· ∈ found) (Quotes round found) := by
  unfold report
  refine quotes_observe fun gate _ => ?_
  split
  · exact heeds_pure _
  · refine heeds_perform fun gate _ => ?_
    unfold surface
    split
    · exact quotes_of_inward (by simp)
    · refine quotes_of_inward (List.forall_mem_append.mpr ⟨inward_record outcome gate, ?_⟩)
      exact List.forall_mem_singleton.mpr trivial

theorem quotes_collect (votes : List Vote)
    : (collect round votes).Heeds (· ∈ found) (Quotes round found) := by
  have polled {next : Option Outcome → Activity Unit}
      (nothing : (next none).Heeds (· ∈ found) (Quotes round found))
      (telling : ∀ outcome, next (some outcome) = report outcome) (admitted : List Vote)
      (electorate : Electorate)
      : (poll round admitted electorate >>= next).Heeds (· ∈ found) (Quotes round found) := by
    refine Heeds.bind (heeds_perform fun _ _ => quotes_of_inward (inward_intakeCounts _)) ?_
    intro told
    cases told with
    | none => exact nothing
    | some outcome => exact telling outcome ▸ quotes_report outcome
  unfold collect
  refine quotes_observe fun gate _ => ?_
  cases gate.electorate with
  | none => exact heeds_pure _
  | some electorate =>
      simp only
      split
      · split
        · exact Heeds.bind (heeds_perform fun _ _ => quotes_of_inward (by simp)) fun _ =>
            polled (heeds_pure _) (fun _ => rfl) _ _
        · exact polled (heeds_pure _) (fun _ => rfl) _ _
      · exact heeds_pure _

theorem quotes_receive (sound : Bundle.round bundle = .ok round)
    : (receive settings bundle).Heeds (· ∈ found) (Quotes round found) := by
  unfold receive
  refine quotes_observe fun gate _ => ?_
  split
  · exact heeds_pure _
  rw [sound]
  simp only
  split
  · exact heeds_perform fun _ _ => quotes_of_inward (by simp [Effect.Inward])
  refine quotes_observe fun gate _ => ?_
  split
  · exact quotes_answer bundle
  · exact quotes_collect bundle

theorem inward_arrivalCounts (votes : List Vote)
    : ∀ effect ∈ arrivalCounts votes, effect.Inward := by
  unfold arrivalCounts
  refine List.forall_mem_cons.mpr ⟨trivial, ?_⟩
  split <;> simp [Effect.Inward]

theorem quotes_deliver (sound : Bundle.round bundle = .ok round)
    : (deliver settings bundle).Heeds (· ∈ found) (Quotes round found) := by
  unfold deliver
  refine Heeds.bind (heeds_perform fun _ _ => quotes_of_inward (inward_arrivalCounts bundle)) ?_
  intro _
  split
  · exact (quotes_receive sound).bind fun _ => heeds_pure true
  · exact heeds_pure false

/-- A bundle that is not sound is not handed to the gate. -/
theorem inward_deliver {defect : BundleDefect} (unsound : Bundle.round bundle = .error defect)
    : (deliver settings bundle).Heeds (fun _ => True)
        fun _ _ effects => ∀ effect ∈ effects, effect.Inward := by
  unfold deliver
  refine Heeds.bind (heeds_perform fun _ _ => inward_arrivalCounts bundle) fun _ => ?_
  rw [unsound]
  exact heeds_pure false

/-- Peers are sent what the gate holds of the round of their votes. -/
theorem Activity.Course.held_of_sent {moves : List Move} {rest : Activity Bool} {move : Move}
    {peer : Peer} {votes : List Vote} (course : (deliver settings bundle).Course moves rest)
    (member : move ∈ moves) (sent : .send peer votes ∈ move.effects)
    : ∃ round outcome,
        Bundle.round bundle = .ok round ∧ Session.Held moves round outcome
        ∧ outcome.votes = votes := by
  cases sound : Bundle.round bundle with
  | error defect =>
      have inward := course.heeds (inward_deliver sound) fun _ _ => trivial
      exact (inward move member _ sent).elim
  | ok round =>
      have quotes := course.heeds (quotes_deliver sound) fun move => List.mem_map_of_mem
      obtain ⟨gate, found, outcome, known, same⟩ := quotes move member peer votes sent
      obtain ⟨look, inside, rfl⟩ := List.mem_map.mp found
      exact ⟨round, outcome, rfl, ⟨look, inside, .inl known⟩, same⟩

end

-----------------------------------------------------------------------------------------
-- Commits
-----------------------------------------------------------------------------------------

section

variable {settings : Settings} {window : UInt64} {permits : Request → Prop} {later : Session}
  {moves : List Move}

/-- A commit that the gate holds at any time was reached by one step, and the activity that did this
step hands over the block next. It may not have come that far yet, or be overtaken, and then no
activity hands it over. What a switch gives and what votes are answered with is held by the gate.
-/
theorem commits_handed_over (path : Path settings permits ⟨.initial window, [], []⟩ moves later)
    : (∀ round outcome, Session.Held moves round outcome → outcome.kind = .commit →
        ∃ block earlier origin rest,
          outcome.winner = some block ∧ moves = earlier ++ origin :: rest
          ∧ origin.Freezes round outcome
          ∧ Session.Handover later moves origin.number (own origin.number rest) block round)
      ∧ (∀ number round peers outcome,
          (switch round peers).Course (own number moves) (.done (.ok (some outcome))) →
          Session.Held (own number moves) round outcome)
      ∧ ∀ number bundle rest, (deliver settings bundle).Course (own number moves) rest →
          ∀ move ∈ own number moves, ∀ peer votes, .send peer votes ∈ move.effects →
          ∃ round outcome,
            Bundle.round bundle = .ok round ∧ Session.Held (own number moves) round outcome
            ∧ outcome.votes = votes := by
  refine ⟨fun round outcome held commit => ?_, fun _ _ _ _ => Course.held_of_switch,
    fun _ _ _ course move member _ _ => course.held_of_sent member⟩
  obtain ⟨origin, member, freezes⟩ := path.exists_freezes (.inr held)
  obtain ⟨earlier, rest, rfl⟩ := List.append_of_mem member
  obtain ⟨block, winner, handover⟩ := path.handover freezes commit
  exact ⟨block, earlier, origin, rest, winner, rfl, freezes, handover⟩

/-- A bundle decides a round for a block. Before the same activity looks which round is current, a
vote moves the gate on to the next one.
-/
theorem exists_overtaken_bundle
    : ∃ (moves : List Move) (later : Session) (outcome : Outcome),
        Path (.numbered 1) (fun _ => True) ⟨.initial 10, [], []⟩ moves later
        ∧ later.gate.stopped = false ∧ Session.Held moves ⟨5, 0⟩ outcome ∧ outcome.kind = .commit
        ∧ (∀ activity ∈ later.underWay, activity = .done ())
        ∧ ∀ move ∈ moves, commits move.effects = [] := by
  have voting := (@Path.start (.numbered 1) (fun _ => True) ⟨.initial 10, [], []⟩).asked 12
    (.vote (.numbered 1) ⟨.four, none⟩) trivial
  have deciding := voting.asked 6 (.deliver [.numbered 2 (.numbered 1), .numbered 3 (.numbered 1)])
    trivial
  have moving := deciding.asked 12 (.vote (.empty ⟨6, 0⟩) ⟨.four, none⟩) trivial
  have path := Path.row 2 [_] moving
  refine ⟨_, _, _, path, by decide, ⟨_, List.mem_append_right _ (.head _), .inr rfl⟩, by decide, ?_,
    by decide⟩
  refine List.forall_mem_cons.mpr ⟨rfl, ?_⟩
  exact List.forall_mem_cons.mpr ⟨rfl, List.forall_mem_singleton.mpr rfl⟩

/-- The block that is lost is owed by an activity that found the gate past the round. -/
theorem commits_handed_over_unless_overtaken
    : ∃ (moves : List Move) (later : Session) (number : Nat) (rest : List Move),
        Path (.numbered 1) (fun _ => True) ⟨.initial 10, [], []⟩ moves later
        ∧ later.gate.stopped = false
        ∧ Soon (fun move => move.before.stopped = true ∨ ⟨5, 0⟩ < move.before.book.current)
            (own number rest)
        ∧ ∀ move ∈ moves, ∀ other, (other, ⟨5, 0⟩) ∉ commits move.effects := by
  obtain ⟨moves, later, outcome, path, live, held, commit, ended, none⟩ := exists_overtaken_bundle
  obtain ⟨settled, -⟩ := commits_handed_over path
  obtain ⟨block, earlier, origin, rest, -, split, -, handover⟩ := settled _ _ held commit
  cases handover with
  | handed soon =>
      obtain ⟨looks, move, others, apart, -, block⟩ := soon
      have mine : move ∈ own origin.number rest := by simp [apart]
      have inside : move ∈ moves := by simp [split, (Session.mem_own.mp mine).1]
      rw [none move inside] at block
      cases block
  | overtaken soon never => exact ⟨moves, later, origin.number, rest, path, live, soon, never⟩
  | pending _ ongoing _ =>
      obtain ⟨activity, found, ongoing⟩ := ongoing
      have member := List.mem_reverse.mp (List.mem_of_getElem? found)
      exact absurd (ended activity member) (ongoing ())

end

/-- A gate votes in two rounds one after the other, and then the last vote for a block of the first
one comes in.
-/
theorem exists_lost_commit
    : ∃ deeds gate,
        Run (.numbered 1) 10 deeds gate
        ∧ let deed := Call.deed (.numbered 1) (.receive [.numbered 3 (.numbered 1)]) gate
          deed.after.stopped = false
          ∧ (∃ outcome, deed.after.book.decision ⟨5, 0⟩ = some outcome ∧ outcome.kind = .commit
            ∧ outcome.winner = some (.numbered 1))
          ∧ (deeds ++ [deed]).flatMap (fun deed => commits deed.effects) = [] := by
  have voted := (Run.start : Run (.numbered 1) 10 [] _).next (.vote (.numbered 1) ⟨.four, none⟩)
    trivial
  have heard := voted.next (.receive [.numbered 2 (.numbered 1)]) trivial
  have moved := heard.next (.vote (.empty ⟨6, 0⟩) ⟨.four, none⟩) trivial
  refine ⟨_, _, moved, by decide, ⟨_, rfl, ?_⟩, by decide⟩
  decide

/-- Not every commit that a gate holds was handed over. -/
theorem not_commits_handed_over
    : ¬ ∀ (settings : Settings) (window : UInt64) (deeds : List Deed) (gate : Gate) (round : Round)
          (outcome : Outcome) (candidate : Candidate),
        Run settings window deeds gate → gate.stopped = false →
        gate.book.decision round = some outcome → outcome.kind = .commit →
        outcome.winner = some candidate →
        (candidate, round) ∈ deeds.flatMap fun deed => commits deed.effects := by
  intro handed
  obtain ⟨deeds, gate, run, live, ⟨outcome, known, commit, winner⟩, none⟩ := exists_lost_commit
  have lost := handed _ _ _ _ _ outcome _ (run.next (.receive [.numbered 3 (.numbered 1)]) trivial)
    live known commit winner
  rw [none] at lost
  cases lost

end Quorum.Gate
