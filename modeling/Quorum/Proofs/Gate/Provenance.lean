import Quorum.Proofs.Agreement.Round
import Quorum.Proofs.Gate.Ballots
import Quorum.Proofs.PollBook.Provenance

/-! Where the votes of a gate come from. Each of them was cast by the gate itself, or came in with a
bundle that was checked, by a peer that was known then. So nobody is accused on the strength of votes
that were not checked.
-/

namespace Quorum.Gate

/-- The call lets a vote of the round in. -/
inductive Deed.Admits (settings : Settings) (deed : Deed) (round : Round) (vote : Vote) : Prop
  /-- The vote was signed and cast. -/
  | cast (casts : deed.Casts settings round vote)
  /-- The vote came with a sound bundle of accepted votes, by a peer that the gate knew. -/
  | heard {bundle : List Vote} {electorate : Electorate} (call : deed.call = .receive bundle)
    (sound : Bundle.round bundle = .ok round)
    (genuine : ∀ other ∈ bundle, settings.credentials.accepts other = true)
    (member : vote ∈ bundle) (consulted : deed.before.electorate = some electorate)
    (known : electorate.Has vote.key)

/-- What vouches for the votes held before a call and for those that it lets in vouches for the votes
held after it.
-/
theorem Deed.Done.vouched {settings : Settings} {deed : Deed} (done : deed.Done settings)
    {vouched : Round → Vote → Prop} (held : deed.before.book.Vouched vouched)
    (admits : ∀ round vote, deed.Admits settings round vote → vouched round vote)
    : deed.after.book.Vouched vouched := by
  cases done with
  | @vote candidate electorate before _ _ _ ends =>
      cases ends with
      | refused _ => exact held
      | @cast vote _ _ _ _ _ signed _ tally =>
          have own : vouched candidate.round vote :=
            admits _ _ (.cast ⟨rfl, candidate, electorate, rfl, signed⟩)
          simp only [tally.rephased.book, polled, book_begun]
          exact (held.advance candidate.round).insert (List.forall_mem_singleton.mpr own) _
  | @switch round _ _ _ _ _ ends =>
      rcases ends.settles with ⟨rfl, -⟩ | ⟨roster, _, book, _, -, -, evaluated, same⟩
      · exact held
      · have after := (held.advance round).evaluate round ⟨roster, none⟩
        rw [evaluated] at after
        simp only [same.book]
        exact after
  | @receive votes before _ _ ends =>
      cases ends with
      | ignored | dropped | answered _ _ _ _ _ => exact held
      | @collected round electorate _ _ _ sound genuine _ consulted tally =>
          have let_in (vote : Vote) (member : vote ∈ admitted electorate votes)
              : vouched round vote := by
            obtain ⟨inside, known⟩ := List.mem_filter.mp member
            exact admits _ _ (.heard rfl sound genuine inside consulted (of_decide_eq_true known))
          simp only [tally.rephased.book, polled, (rephased_heard round before).book]
          exact held.insert let_in _
  | rebroadcast ends =>
      cases ends with
      | spent | sent _ _ _ => exact held
  | stop before =>
      simp only [book_halted]
      exact held

/-- In every run the calls vouch for the votes that are held; by induction on the calls. -/
theorem Run.vouched {settings : Settings} {window : UInt64} {deeds : List Deed} {gate : Gate}
    (run : Run settings window deeds gate)
    : gate.book.Vouched fun round vote => ∃ deed ∈ deeds, deed.Admits settings round vote := by
  induction run with
  | start => exact .empty _
  | @next deeds gate _ call _ ih =>
      refine (call.done settings gate).vouched (ih.mono fun round vote => ?_) fun round vote => ?_
      · rintro ⟨deed, member, admits⟩
        exact ⟨deed, List.mem_append_left _ member, admits⟩
      · intro admits
        exact ⟨_, List.mem_append_right _ (List.mem_singleton_self _), admits⟩

/-- Every vote that a gate holds of a round, counted or as evidence, is one of that round that a call
let in, either cast and signed by the gate or checked and by a known peer. All evidence convicts.
-/
theorem votes_admitted {settings : Settings} {window : UInt64} {deeds : List Deed} {gate : Gate}
    (run : Run settings window deeds gate) {poll : Poll} (stored : poll ∈ gate.book.polls)
    : (∀ vote, poll.Holds vote →
          vote.round = poll.round ∧ ∃ deed ∈ deeds, deed.Admits settings poll.round vote)
      ∧ ∀ known ∈ poll.evidence, known.Convicts poll.round := by
  have held := run.vouched poll stored
  exact ⟨fun vote holds => held.of_holds holds, held.convicts⟩

/-- A gate that has voted hears two votes of another peer, and holds them against it. -/
theorem votes_admitted_of_turncoat
    : ∃ deeds gate,
        Run (.numbered 1) 10 deeds gate
        ∧ ∃ poll ∈ gate.book.polls, ∃ known,
            poll.evidence = [known] ∧ known.Convicts poll.round
            ∧ ∃ deed ∈ deeds, deed.Admits (.numbered 1) poll.round known.second := by
  have voted := (Run.start : Run (.numbered 1) 10 [] _).next (.vote (.numbered 1) ⟨.four, none⟩)
    trivial
  have heard := voted.next (.receive [.numbered 2 (.numbered 1)]) trivial
  have turned := heard.next (.receive [.numbered 2 (.numbered 2)]) trivial
  obtain ⟨admitted, convicts⟩ := votes_admitted turned List.mem_cons_self
  have shown := List.mem_singleton_self
    (Equivocation.mk (.numbered 2 (.numbered 1)) (.numbered 2 (.numbered 2)))
  refine ⟨_, _, turned, _, List.mem_cons_self, _, rfl, convicts _ shown, ?_⟩
  exact (admitted _ (.second shown rfl)).2

end Quorum.Gate
