import Quorum.Proofs.Gate.Poise
import Quorum.Proofs.PollBook.Window

/-! Bundles without use. A bundle that a gate has no use for leaves it as it is and reaches nobody,
whatever comes in between the steps that it takes.
-/

namespace Quorum

/-- The effect increments a counter, and does nothing else. -/
def Effect.Counts : Effect → Prop
  | .count _ _ => True
  | .send _ _ | .surface _ | .commit _ _ | .schedule _ => False

theorem Electorate.has_of_peer? {electorate : Electorate} {key : PublicKey} {peer : Peer}
    (found : electorate.peer? key = some peer)
    : electorate.Has key := by
  have listed {roster : Roster} (found : roster.peer? key = some peer) : roster.Has key :=
    ⟨peer, List.mem_of_find?_eq_some found, by simpa using List.find?_some found⟩
  unfold peer? at found
  rw [Option.orElse_eq_orElse, Option.orElse_eq_or] at found
  rcases Option.or_eq_some_iff.mp found with primary | ⟨-, alternative⟩
  · exact .inl (listed primary)
  · obtain ⟨roster, named, found⟩ := Option.bind_eq_some_iff.mp alternative
    exact .inr ⟨roster, named, listed found⟩

namespace Gate

open Activity
open Session (Move)

/-- The gate stays as it is, and nothing is done to its surroundings but counting. -/
def Spares (gate later : Gate) (effects : List Effect) : Prop :=
  later = gate ∧ ∀ effect ∈ effects, effect.Counts

/-- None of the gates that are found has use for the bundle. -/
inductive Useless (settings : Settings) (votes : List Vote) (found : List Gate) : Prop
  | empty (nothing : votes = [])
  | mixed {first other : Vote} (member : first ∈ votes) (member' : other ∈ votes)
    (differ : first.round ≠ other.round)
  | forged {vote : Vote} (member : vote ∈ votes)
    (refuted : settings.credentials.accepts vote = false)
  /-- No vote is by a known peer, as long as no electorate is known in particular. -/
  | strange
    (strangers
      : ∀ gate ∈ found, ∀ electorate, gate.electorate = some electorate →
          ∀ vote ∈ votes, ¬ electorate.Has vote.key)
  | distant {vote : Vote} (member : vote ∈ votes)
    (ahead : ∀ gate ∈ found, gate.book.Distant vote.round)

-----------------------------------------------------------------------------------------
-- Steps that change nothing
-----------------------------------------------------------------------------------------

section

variable {α β : Type} {meant : Gate → Prop}

theorem spares_observe {view : Gate → α} {continuation : α → Activity β}
    (rest : ∀ gate, meant gate → (continuation (view gate)).Heeds meant Spares)
    : (observe view >>= continuation).Heeds meant Spares :=
  heeds_observe_bind (fun _ => ⟨rfl, by simp⟩) rest

/-- Without a break, each step finds the gate that the first one found. -/
theorem Activity.Heeds.run_spares {activity : Activity α} (heeds : activity.Heeds meant Spares)
    {gate : Gate} (meets : meant gate)
    : Spares gate (activity.run gate).2.1 (activity.run gate).2.2 := by
  induction activity with
  | done value => exact ⟨rfl, by simp [Activity.run]⟩
  | step act next ih =>
      obtain ⟨⟨same, counts⟩, later⟩ := heeds gate meets
      have rest := ih _ later
      simp only [Activity.run, same]
      exact ⟨rest.1, List.forall_mem_append.mpr ⟨counts, rest.2⟩⟩

end

-----------------------------------------------------------------------------------------
-- Bundles
-----------------------------------------------------------------------------------------

section

variable {settings : Settings} {votes : List Vote} {meant : Gate → Prop} {electorate : Electorate}

theorem spares_dropped : (emit [.count .bundlesDropped 1]).Heeds meant Spares :=
  heeds_perform fun _ _ => ⟨rfl, List.forall_mem_singleton.mpr trivial⟩

/-- A bundle that is not sound, or holds a vote that is not accepted, is dropped. -/
theorem spares_of_unsound
    (unsound
      : ∀ round, Bundle.round votes = .ok round →
          ∃ vote ∈ votes, settings.credentials.accepts vote = false)
    : (receive settings votes).Heeds meant Spares := by
  unfold receive
  refine spares_observe fun gate _ => ?_
  split
  · exact heeds_pure _
  cases sound : Bundle.round votes with
  | error defect => exact spares_dropped
  | ok round =>
      have forged : ¬ votes.all settings.credentials.accepts = true := by
        simpa using unsound round sound
      simp only [forged, Bool.false_eq_true, not_false_eq_true, if_true]
      exact spares_dropped

theorem laggards_of_strangers (decision : Outcome)
    (strangers : ∀ vote ∈ votes, ¬ electorate.Has vote.key)
    : laggards decision electorate votes = [] := by
  refine List.eq_nil_iff_forall_not_mem.mpr fun peer lags => ?_
  obtain ⟨vote, member, -, known⟩ := mem_laggards.mp lags
  exact strangers vote member (Electorate.has_of_peer? known)

/-- Where no voter is known, nobody is answered, and nothing is collected. -/
theorem spares_of_strange
    (strange
      : ∀ gate, meant gate → ∀ electorate, gate.electorate = some electorate →
          ∀ vote ∈ votes, ¬ electorate.Has vote.key)
    : (receive settings votes).Heeds meant Spares := by
  have answered (round : Round) : (answer round votes).Heeds meant Spares := by
    unfold answer
    refine spares_observe fun gate _ => ?_
    cases gate.book.decision round with
    | none => exact heeds_pure _
    | some decision =>
        refine spares_observe fun gate meets => ?_
        cases known : gate.electorate with
        | none => exact heeds_pure _
        | some electorate =>
            have nobody := laggards_of_strangers decision (strange gate meets electorate known)
            simp only [nobody, if_true]
            exact heeds_pure _
  have collected (round : Round) : (collect round votes).Heeds meant Spares := by
    unfold collect
    refine spares_observe fun gate meets => ?_
    cases known : gate.electorate with
    | none => exact heeds_pure _
    | some electorate =>
        have nobody : votes.filter (fun vote => decide (electorate.Has vote.key)) = [] :=
          List.filter_eq_nil_iff.mpr fun vote member =>
            mt of_decide_eq_true (strange gate meets electorate known vote member)
        simp only [nobody, ne_eq, not_true_eq_false, if_false]
        exact heeds_pure _
  unfold receive
  refine spares_observe fun gate _ => ?_
  split
  · exact heeds_pure _
  cases Bundle.round votes with
  | error defect => exact spares_dropped
  | ok round =>
      simp only
      split
      · exact spares_dropped
      · refine spares_observe fun gate _ => ?_
        split
        · exact answered round
        · exact collected round

/-- A round ahead of the window of a poised gate is neither closed nor its latest one. -/
theorem Poised.foreign_of_distant {gate : Gate} (poised : gate.Poised) {round : Round}
    (distant : gate.book.Distant round)
    : ¬ gate.book.Closed round ∧ round ≠ gate.round := by
  have ahead := PollBook.lt_of_distant distant
  constructor
  · rintro (expired | frozen)
    · exact PollBook.not_expired_of_le (.inl ahead) expired
    · obtain ⟨outcome, known⟩ := Option.isSome_iff_exists.mp frozen
      exact Round.not_lt.mpr (poised.decided known) ahead
  · rintro rfl
    exact Round.not_lt.mpr poised.round ahead

/-- Votes ahead of the window are not taken in, and their round is not the latest one. -/
theorem spares_of_distant {round : Round} (sound : Bundle.round votes = .ok round)
    (distant : ∀ gate, meant gate → gate.Poised ∧ gate.book.Distant round)
    : (receive settings votes).Heeds meant Spares := by
  have foreign (gate : Gate) (meets : meant gate)
      : ¬ gate.book.Closed round ∧ round ≠ gate.round :=
    (distant gate meets).1.foreign_of_distant (distant gate meets).2
  unfold receive
  refine spares_observe fun gate _ => ?_
  split
  · exact heeds_pure _
  rw [sound]
  simp only
  split
  · exact spares_dropped
  refine spares_observe fun gate meets => ?_
  simp only [(foreign gate meets).1, decide_false, Bool.false_eq_true, if_false]
  unfold collect
  refine spares_observe fun gate meets => ?_
  cases gate.electorate with
  | none => exact heeds_pure _
  | some electorate =>
      simp only [(foreign gate meets).2, if_false]
      split
      · intro gate meets
        have refused (admitted : List Vote)
            : gate.book.insert round admitted (some electorate) = (gate.book, ⟨.none, none⟩) :=
          PollBook.insert_of_not_admits (fun admits => admits.2 (distant gate meets).2) _ _
        simp only [refused]
        exact ⟨⟨rfl, by simp [intakeCounts, Intake.none]⟩, heeds_pure _⟩
      · exact heeds_pure _

namespace Useless

variable {found : List Gate}

theorem heeds (useless : Useless settings votes found) (poised : ∀ gate ∈ found, gate.Poised)
    : (receive settings votes).Heeds (· ∈ found) Spares := by
  cases useless with
  | empty nothing =>
      exact spares_of_unsound fun round sound => absurd nothing (Bundle.round_eq_ok.mp sound).1
  | mixed member member' differ =>
      refine spares_of_unsound fun round sound => absurd ?_ differ
      obtain ⟨-, ofRound⟩ := Bundle.round_eq_ok.mp sound
      exact (ofRound _ member).trans (ofRound _ member').symm
  | forged member refuted => exact spares_of_unsound fun _ _ => ⟨_, member, refuted⟩
  | strange strangers => exact spares_of_strange strangers
  | @distant vote member ahead =>
      cases sound : Bundle.round votes with
      | error defect =>
          exact spares_of_unsound fun round usable => nomatch sound.symm.trans usable
      | ok round =>
          obtain rfl := (Bundle.round_eq_ok.mp sound).2 vote member
          exact spares_of_distant sound fun gate member => ⟨poised gate member, ahead gate member⟩

/-- By its moves on poised gates that have no use for it, a bundle changes nothing. -/
theorem spares {moves : List Move} {rest : Activity Unit}
    (useless : Useless settings votes (moves.map (·.before)))
    (course : (receive settings votes).Course moves rest)
    (poised : ∀ move ∈ moves, move.before.Poised)
    : ∀ move ∈ moves, Spares move.before move.after move.effects :=
  course.heeds (useless.heeds (List.forall_mem_map.mpr poised)) fun _ => List.mem_map_of_mem

/-- Without a break, a poised gate that has no use for a bundle stays as it is. -/
theorem receive {gate : Gate} (useless : Useless settings votes [gate]) (poised : gate.Poised)
    : Spares gate ((Gate.receive settings votes).run gate).2.1
        ((Gate.receive settings votes).run gate).2.2 :=
  (useless.heeds (List.forall_mem_singleton.mpr poised)).run_spares (List.mem_singleton_self gate)

end Useless

end

end Gate

end Quorum
