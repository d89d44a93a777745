import Quorum.Proofs.Gate.Poise

/-! Debts. The step that decides a round leaves its activity with a debt: the outcome is to be
recorded, and the block of a commit handed over. The activity does nothing else before it has paid,
unless it finds that there is no need to pay any more.
-/

namespace Quorum

/-- The blocks to hand over when the outcome is recorded. -/
def Outcome.blocks (outcome : Outcome) : List (Candidate × Round) :=
  match outcome.kind, outcome.winner with
  | .commit, some winner => [(winner, outcome.round)]
  | _, _ => []

theorem Outcome.mem_blocks {outcome : Outcome} {candidate : Candidate} {round : Round}
    : (candidate, round) ∈ outcome.blocks
      ↔ outcome.kind = .commit ∧ outcome.winner = some candidate ∧ outcome.round = round := by
  unfold blocks
  split
  · next kind winner => simp [kind, winner, eq_comm]
  · next other => exact ⟨nofun, fun ⟨kind, winner, _⟩ => (other candidate kind winner).elim⟩

/-- An outcome that does not end its round has no block. -/
theorem Outcome.blocks_of_open {outcome : Outcome} (ongoing : ¬ outcome.Terminal)
    : outcome.blocks = [] := by
  refine List.eq_nil_iff_forall_not_mem.mpr fun ⟨_, _⟩ block => ongoing ?_
  simp [Terminal, (mem_blocks.mp block).1]

namespace Gate

open Activity
open Session (Move own)

theorem commits_record (outcome : Outcome) (gate : Gate)
    : commits (gate.record outcome).2 = outcome.blocks := by
  obtain ⟨kind, round, winner, votes, side⟩ := outcome
  cases kind <;> cases winner <;> rfl

-----------------------------------------------------------------------------------------
-- What steps do about a debt
-----------------------------------------------------------------------------------------

/-- The move decides the round. -/
def Session.Move.Freezes (move : Move) (round : Round) (outcome : Outcome) : Prop :=
  move.before.book.decision round = none ∧ move.after.book.decision round = some outcome

/-- The move does nothing. -/
def Session.Move.Looks (move : Move) : Prop :=
  move.after = move.before ∧ move.effects = []

/-- No round is decided. -/
def Undecided (gate later : Gate) : Prop :=
  ∀ round, gate.book.decision round = none → later.book.decision round = none

theorem undecided_of_same {gate later : Gate} (book : later.book = gate.book)
    : Undecided gate later := by
  intro round
  rw [book]
  exact id

/-- What a step does with the debt of its activity, and the debt that it leaves. -/
inductive Settlement (gate later : Gate) (effects : List Effect)
    : Option Outcome → Option Outcome → Prop
  | free (undecided : Undecided gate later) (kept : commits effects = [])
    : Settlement gate later effects none none
  /-- A round is decided, and no other one. -/
  | incur {outcome : Outcome} (before : gate.book.decision outcome.round = none)
    (after : later.book.decision outcome.round = some outcome)
    (only
      : ∀ round, round ≠ outcome.round → gate.book.decision round = none →
          later.book.decision round = none)
    (winner : outcome.kind = .commit → ∃ candidate, outcome.winner = some candidate)
    (kept : commits effects = [])
    : Settlement gate later effects none (some outcome)
  | look {outcome : Outcome} (same : later = gate) (silent : effects = [])
    : Settlement gate later effects (some outcome) (some outcome)
  | pay {outcome : Outcome} (book : later.book = gate.book)
    (handed : commits effects = outcome.blocks)
    : Settlement gate later effects (some outcome) none
  /-- The gate is stopped or in another round. -/
  | drop {outcome : Outcome} (same : later = gate) (silent : effects = [])
    (overtaken : gate.stopped = true ∨ outcome.round ≠ gate.book.current)
    : Settlement gate later effects (some outcome) none

namespace Activity

variable {α β : Type} {debt : Option Outcome}

/-- From the debt on, the activity settles each of its debts before it ends. -/
def Settles : Activity α → Option Outcome → Prop
  | done _, debt => debt = none
  | step act next, debt =>
      ∀ gate, ∃ left,
        Settlement gate (act gate).2.1 (act gate).2.2 debt left ∧ Settles (next (act gate).1) left

theorem Settles.bind {activity : Activity α} {continuation : α → Activity β}
    (settles : activity.Settles debt) (rest : ∀ value, (continuation value).Settles none)
    : (activity >>= continuation).Settles debt := by
  change (activity.bind continuation).Settles debt
  induction activity generalizing debt with
  | done value =>
      cases settles
      exact rest value
  | step act next ih =>
      intro gate
      obtain ⟨left, settlement, later⟩ := settles gate
      exact ⟨left, settlement, ih _ later⟩

theorem settles_free {act : Gate → β × Gate × List Effect} {next : β → Activity α}
    (book : ∀ gate, (act gate).2.1.book = gate.book)
    (kept : ∀ gate, commits (act gate).2.2 = []) (rest : ∀ value, (next value).Settles none)
    : (step act next).Settles none :=
  fun gate => ⟨none, .free (undecided_of_same (book gate)) (kept gate), rest _⟩

theorem settles_move (round : Round) (electorate : Electorate) {next : Unit → Activity α}
    (rest : (next ()).Settles none)
    : Settles (do
        modify (advance round)
        modify (forget round)
        modify (adopt round electorate) >>= next) none := by
  refine fun gate => ⟨none, .free ?_ rfl, ?_⟩
  · exact fun decided undecided => PollBook.decision_advance_of_none undecided round
  refine settles_free (fun _ => rfl) (fun _ => rfl) fun _ => ?_
  refine settles_free (fun gate => ?_) (fun _ => rfl) fun _ => rest
  change (gate.adopt round electorate).book = gate.book
  unfold adopt
  split <;> rfl

end Activity

section

variable {outcome : Outcome}

/-- What a live gate records pays the debt, and a stopped one drops it. -/
theorem settlement_surface (outcome : Outcome) (gate : Gate)
    : Settlement gate (surface outcome gate).2.1 (surface outcome gate).2.2 (some outcome) none := by
  unfold surface
  split
  · next halted => exact .drop rfl rfl (.inl halted)
  · refine .pay (rephased_record outcome gate).book ?_
    have recorded := commits_record outcome gate
    simp only [commits] at recorded
    simp [commits, recorded]

theorem settlement_recordSwitch (outcome : Outcome) (gate : Gate)
    : Settlement gate (recordSwitch outcome gate).2.1 (recordSwitch outcome gate).2.2 (some outcome)
        none := by
  unfold recordSwitch
  split
  · next halted => exact .drop rfl rfl (.inl halted)
  · exact .pay (rephased_record outcome gate).book (commits_record outcome gate)

/-- A report settles the debt of an outcome that ends its round. -/
theorem settles_report (terminal : outcome.Terminal) : (report outcome).Settles (some outcome) := by
  intro gate
  by_cases current : outcome.round = gate.book.current
  · refine ⟨_, .look rfl rfl, ?_⟩
    change Settles (if _ then _ else _) _
    rw [if_neg fun late => late.2 current]
    exact fun gate => ⟨none, settlement_surface outcome gate, rfl⟩
  · refine ⟨none, .drop rfl rfl (.inr current), ?_⟩
    change Settles (if _ then _ else _) _
    rw [if_pos ⟨terminal, current⟩]
    rfl

/-- Other outcomes have no block. -/
theorem settles_report_of_open (ongoing : ¬ outcome.Terminal) : (report outcome).Settles none := by
  refine settles_free (fun _ => rfl) (fun _ => rfl) fun current => ?_
  change Settles (if _ then _ else _) _
  rw [if_neg fun late => ongoing late.1]
  refine settles_free (fun gate => (rephased_surface outcome gate).book) (fun gate => ?_) fun _ => rfl
  cases settlement_surface outcome gate with
  | pay _ handed => exact handed.trans (Outcome.blocks_of_open ongoing)
  | drop _ silent _ => exact congrArg commits silent

/-- A new decision is a debt of the step that takes the votes in. -/
theorem settles_poll {α : Type} (round : Round) (votes : List Vote) (electorate : Electorate)
    {next : Option Outcome → Activity α} (nothing : (next none).Settles none)
    (ongoing : ∀ outcome, ¬ outcome.Terminal → (next (some outcome)).Settles none)
    (ending : ∀ outcome, outcome.Terminal → (next (some outcome)).Settles (some outcome))
    : (poll round votes electorate >>= next).Settles none := by
  intro gate
  have kept := (silent_intakeCounts
    (gate.book.insert round votes (some electorate)).2.intake).commits_eq_nil
  have told {decided : Round} {outcome : Outcome} (before : gate.book.decision decided = none)
      (after
        : (gate.book.insert round votes (some electorate)).1.decision decided = some outcome)
      : (gate.book.insert round votes (some electorate)).2.outcome = some outcome
        ∧ outcome.round = decided ∧ outcome.Terminal := by
    obtain ⟨-, -, told, decides⟩ := PollBook.decided_of_insert before after
    have concludes := Poll.concludes_of_outcome? decides
    exact ⟨told, concludes.round.trans (PollBook.round_poll _ _), concludes.terminal⟩
  change ∃ left, Settlement gate
      { gate with book := (gate.book.insert round votes (some electorate)).1 } _ none left
    ∧ (next (gate.book.insert round votes (some electorate)).2.outcome).Settles left
  cases found : (gate.book.insert round votes (some electorate)).2.outcome with
  | none =>
      refine ⟨none, .free (fun decided before => ?_) kept, nothing⟩
      refine Option.eq_none_iff_forall_ne_some.mpr fun outcome known => ?_
      cases found.symm.trans (told before known).1
  | some outcome =>
      by_cases terminal : outcome.Terminal
      · have brings := PollBook.brings_insert found
        have before : gate.book.decision outcome.round = none :=
          Option.not_isSome_iff_eq_none.mp fun frozen => brings.active (.inr frozen)
        refine ⟨some outcome, .incur before (brings.stored terminal) ?_ brings.winner kept,
          ending outcome terminal⟩
        intro decided other before
        refine Option.eq_none_iff_forall_ne_some.mpr fun another known => ?_
        obtain ⟨found', own, -⟩ := told before known
        obtain rfl := Option.some.inj (found.symm.trans found')
        exact other own.symm
      · refine ⟨none, .free (fun decided before => ?_) kept, ongoing outcome terminal⟩
        refine Option.eq_none_iff_forall_ne_some.mpr fun another known => ?_
        obtain ⟨found', -, ends⟩ := told before known
        obtain rfl := Option.some.inj (found.symm.trans found')
        exact terminal ends

/-- A new decision is a debt of the step that evaluates the polls. -/
theorem settles_enterRound (round : Round) (electorate : Electorate)
    : (enterRound round electorate).Settles none := by
  refine settles_move round electorate fun gate => ?_
  generalize evaluated : gate.book.evaluate round electorate = ending
  obtain ⟨book, ruling⟩ := ending
  simp only [evaluated]
  have told {decided : Round} {outcome : Outcome} (before : gate.book.decision decided = none)
      (after : book.decision decided = some outcome)
      : decided = round ∧ ruling = some ⟨outcome, true⟩ := by
    obtain ⟨own, told, -⟩ := PollBook.decided_of_evaluate evaluated before after
    exact ⟨own, told⟩
  have undecided (stale : ∀ outcome, ruling ≠ some ⟨outcome, true⟩)
      : Undecided gate { gate with book } :=
    fun decided before => Option.eq_none_iff_forall_ne_some.mpr fun outcome known =>
      stale outcome (told before known).2
  have entered (phase : Phase) (result : Except Fault (Option Outcome))
      : Settles (do modify (enter phase); return result) none :=
    settles_free (fun gate => (rephased_enter phase gate).book) (fun _ => rfl) fun _ => rfl
  match ruling with
  | none => exact ⟨none, .free (undecided nofun) rfl, entered (.voting round) _⟩
  | some ⟨outcome, false⟩ =>
      exact ⟨none, .free (undecided (by simp)) rfl, entered (.frozen round) _⟩
  | some ⟨outcome, true⟩ =>
      obtain ⟨rfl, -⟩ := PollBook.concludes_of_evaluate evaluated
      have before := (PollBook.fresh_iff evaluated).mp rfl
      have after := PollBook.decision_of_evaluate evaluated
      obtain ⟨-, -, decides⟩ := PollBook.decided_of_evaluate evaluated before after
      have winner := (Poll.concludes_of_outcome? decides).winner
      refine ⟨some outcome, .incur before after ?_ winner rfl, ?_⟩
      · exact fun decided other before => Option.eq_none_iff_forall_ne_some.mpr fun _ known =>
          other (told before known).1
      · refine fun gate => ⟨none, settlement_recordSwitch outcome gate, ?_⟩
        change Settles (if _ then _ else _) none
        split <;> rfl

/-- All work on a gate settles its debts. -/
theorem Activity.Composed.settles {α : Type} {activity : Activity α} (composed : activity.Composed)
    : activity.Settles none := by
  induction composed with
  | done _ => rfl
  | plain _ book kept _ ih => exact settles_free book kept ih
  | move round electorate _ ih => exact settles_move round electorate ih
  | tally round votes electorate _ telling _ ih ih' =>
      refine settles_poll round votes electorate ih ?_ ?_
      · intro outcome ongoing
        rw [telling]
        exact (settles_report_of_open ongoing).bind fun _ => ih' outcome
      · intro outcome terminal
        rw [telling]
        exact (settles_report terminal).bind fun _ => ih' outcome
  | enter round electorate _ ih => exact (settles_enterRound round electorate).bind ih

end

-----------------------------------------------------------------------------------------
-- Courses with debts
-----------------------------------------------------------------------------------------

/-- After moves that do nothing comes one with the property. -/
def Session.Soon (property : Move → Prop) (moves : List Move) : Prop :=
  ∃ looks move others,
    moves = looks ++ move :: others ∧ (∀ look ∈ looks, look.Looks) ∧ property move

namespace Activity

variable {α : Type} {activity rest : Activity α} {moves : List Move} {debt : Option Outcome}
  {round : Round}

/-- A block that is handed over pays the debt, or one that was incurred by an earlier move. -/
theorem Course.incurred (course : activity.Course moves rest) (settles : activity.Settles debt)
    {move : Move} (member : move ∈ moves) {block : Candidate}
    (handed : (block, round) ∈ commits move.effects)
    : (∃ outcome, debt = some outcome ∧ (block, round) ∈ outcome.blocks)
      ∨ ∃ before origin after outcome,
          moves = before ++ origin :: after ∧ move ∈ after ∧ origin.Freezes round outcome := by
  induction course generalizing debt with
  | rest _ => cases member
  | @step β act next moves rest number gate _ ih =>
      obtain ⟨left, settlement, later⟩ := settles gate
      have shift
          (found
            : ∃ before origin after outcome,
                moves = before ++ origin :: after ∧ move ∈ after ∧ origin.Freezes round outcome)
          : ∃ before origin after outcome,
              ⟨number, gate, (act gate).2.1, (act gate).2.2⟩ :: moves = before ++ origin :: after
              ∧ move ∈ after ∧ origin.Freezes round outcome := by
        obtain ⟨before, origin, after, outcome, rfl, member, freezes⟩ := found
        exact ⟨_ :: before, origin, after, outcome, rfl, member, freezes⟩
      have silent {effects : List Effect} (kept : commits effects = [])
          (handed : (block, round) ∈ commits effects) : False := by
        rw [kept] at handed
        cases handed
      rcases List.mem_cons.mp member with rfl | member
      · cases settlement with
        | free _ kept | incur _ _ _ _ kept => exact (silent kept handed).elim
        | look _ silence | drop _ silence _ =>
            exact (silent (congrArg commits silence) handed).elim
        | @pay outcome _ pays => exact .inl ⟨outcome, rfl, pays ▸ handed⟩
      · rcases ih later member with ⟨outcome, rfl, block⟩ | found
        · cases settlement with
          | incur before after _ _ _ =>
              obtain ⟨-, -, rfl⟩ := Outcome.mem_blocks.mp block
              exact .inr ⟨[], _, moves, outcome, rfl, member, before, after⟩
          | look _ _ => exact .inl ⟨outcome, rfl, block⟩
        · exact .inr (shift found)

/-- A move that decides a round leaves the rest of the activity with the debt. -/
theorem Course.indebted (course : activity.Course moves rest) (settles : activity.Settles debt)
    {before after : List Move} {origin : Move} {outcome : Outcome}
    (split : moves = before ++ origin :: after) (freezes : origin.Freezes round outcome)
    : outcome.round = round
      ∧ (outcome.kind = .commit → ∃ candidate, outcome.winner = some candidate)
      ∧ ∃ middle : Activity α, middle.Course after rest ∧ middle.Settles (some outcome) := by
  induction course generalizing debt before with
  | rest _ => simp at split
  | @step β act next moves rest number gate course ih =>
      obtain ⟨left, settlement, later⟩ := settles gate
      cases before with
      | cons first before => exact ih later (List.cons.inj split).2
      | nil =>
          obtain ⟨rfl, rfl⟩ := List.cons.inj split
          obtain ⟨undecided, known⟩ := freezes
          have same (book : (act gate).2.1.book = gate.book) : False := by
            rw [show Move.after _ = (act gate).2.1 from rfl, book] at known
            cases undecided.symm.trans known
          cases settlement with
          | free still _ => cases (still round undecided).symm.trans known
          | look same' _ | drop same' _ _ => exact (same (congrArg Gate.book same')).elim
          | pay book _ => exact (same book).elim
          | @incur debt _ stored only winner _ =>
              have own : round = debt.round := by
                by_contra other
                cases (only round other undecided).symm.trans known
              subst own
              obtain rfl := Option.some.inj (stored.symm.trans known)
              exact ⟨rfl, winner, _, course, later⟩

/-- An activity with a debt does nothing before it pays or finds the gate stopped or in another
round. After that no block is handed over without a new debt.
-/
theorem Course.due {outcome : Outcome} (course : activity.Course moves rest)
    (settles : activity.Settles (some outcome))
    : ((∀ move ∈ moves, move.Looks) ∧ ∀ value, rest ≠ .done value)
      ∨ ∃ looks move others,
          moves = looks ++ move :: others ∧ (∀ look ∈ looks, look.Looks)
          ∧ (commits move.effects = outcome.blocks
            ∨ commits move.effects = []
              ∧ (move.before.stopped = true ∨ outcome.round ≠ move.before.book.current))
          ∧ ∃ middle : Activity α, middle.Course others rest ∧ middle.Settles none := by
  induction course with
  | rest activity =>
      refine .inl ⟨by simp, ?_⟩
      rintro value rfl
      cases settles
  | @step β act next moves rest number gate course ih =>
      obtain ⟨left, settlement, later⟩ := settles gate
      cases settlement with
      | look same silent =>
          have looks : Session.Move.Looks ⟨number, gate, (act gate).2.1, (act gate).2.2⟩ :=
            ⟨same, silent⟩
          rcases ih later with ⟨idle, ongoing⟩ | ⟨earlier, move, others, rfl, idle, settled⟩
          · exact .inl ⟨List.forall_mem_cons.mpr ⟨looks, idle⟩, ongoing⟩
          · have quiet := List.forall_mem_cons.mpr ⟨looks, idle⟩
            exact .inr ⟨_ :: earlier, move, others, rfl, quiet, settled⟩
      | pay _ handed => exact .inr ⟨[], _, moves, rfl, by simp, .inl handed, _, course, later⟩
      | drop _ silent overtaken =>
          have dropped := And.intro (congrArg commits silent) overtaken
          exact .inr ⟨[], _, moves, rfl, by simp, .inr dropped, _, course, later⟩

end Activity

end Gate

end Quorum
