import Quorum.Proofs.PollBook.Provenance

/-! How a poll keeps its books. Each counted vote stands in two places, on the pile of its candidate
and in the record of first votes, and these agree whatever votes come in. The account of a batch tells
what became of each of its votes, and so by how much the record and the evidence have grown.
-/

namespace Quorum.Poll

-----------------------------------------------------------------------------------------
-- The account of a batch
-----------------------------------------------------------------------------------------

/-- The account tells what became of each vote of the batch: how many first votes were added to the
record, and how many pieces of evidence.
-/
structure Accounts (poll : Poll) (votes : List Vote) (later : Poll) (intake : Intake) : Prop where
  total
    : intake.accepted + intake.duplicates + intake.equivocations + intake.foreign = votes.length
  voters : ∃ added, later.voters = poll.voters ++ added ∧ added.length = intake.accepted
  evidence : ∃ added, later.evidence = poll.evidence ++ added ∧ added.length = intake.equivocations

/-- Each vote goes into one of the four numbers, and into what this number counts. -/
theorem Accounts.receive {poll later next : Poll} {votes : List Vote} {intake account : Intake}
    {vote : Vote} (accounts : poll.Accounts votes later intake)
    (taking : later.Taking intake vote (next, account))
    : poll.Accounts (votes ++ [vote]) next account := by
  obtain ⟨total, ⟨voters, recorded, accepted⟩, evidence, shown, convicted⟩ := accounts
  have length : (votes ++ [vote]).length = votes.length + 1 := List.length_append
  cases taking with
  | foreign _ =>
      refine ⟨?_, ⟨voters, recorded, accepted⟩, evidence, shown, convicted⟩
      simp only [Intake.misplace]
      omega
  | counted _ _ =>
      refine ⟨?_, ⟨voters ++ [vote], ?_, ?_⟩, evidence, shown, convicted⟩
      · simp only [Intake.accept]
        omega
      · simp only [recorded, List.append_assoc]
      · simp only [Intake.accept, List.length_append, List.length_singleton, accepted]
  | repeated _ _ _ =>
      refine ⟨?_, ⟨voters, recorded, accepted⟩, evidence, shown, convicted⟩
      simp only [Intake.duplicate]
      omega
  | @convicting first _ _ _ _ =>
      refine ⟨?_, ⟨voters, recorded, accepted⟩, evidence ++ [⟨first, vote⟩], ?_, ?_⟩
      · simp only [Intake.equivocate]
        omega
      · simp only [shown, List.append_assoc]
      · simp only [Intake.equivocate, List.length_append, List.length_singleton, convicted]

/-- By induction on the batch, from its end. -/
theorem accounts_insert (poll : Poll) (votes : List Vote)
    : poll.Accounts votes (poll.insert votes).1 (poll.insert votes).2 := by
  induction votes using List.reverseRecOn with
  | nil => exact ⟨rfl, ⟨[], (List.append_nil _).symm, rfl⟩, [], (List.append_nil _).symm, rfl⟩
  | append_singleton rest vote ih =>
      rw [insert_concat]
      exact ih.receive (taking _ _ vote)

/-- The first vote of a key stays its first vote. -/
theorem firstVote?_insert {poll : Poll} {key : PublicKey} {first : Vote}
    (voted : poll.firstVote? key = some first) (votes : List Vote)
    : (poll.insert votes).1.firstVote? key = some first := by
  obtain ⟨added, recorded, -⟩ := (accounts_insert poll votes).voters
  rw [firstVote?, recorded, List.find?_append, show poll.voters.find? _ = _ from voted,
    Option.some_or]

-----------------------------------------------------------------------------------------
-- Piles and evidence
-----------------------------------------------------------------------------------------

/-- No pile is empty, and no vote is evidence twice. -/
structure Tidy (poll : Poll) : Prop where
  occupied : ∀ pile ∈ poll.piles, pile.votes ≠ []
  distinctSeconds : (poll.evidence.map Equivocation.second).Nodup

theorem tidy_empty (round : Round) : (empty round).Tidy :=
  ⟨by simp [empty], .nil⟩

/-- A pile that was not empty is not emptied, and a new one starts with its vote. -/
theorem occupied_pileUp {vote : Vote} {piles : List Pile}
    (occupied : ∀ pile ∈ piles, pile.votes ≠ [])
    : ∀ pile ∈ pileUp vote piles, pile.votes ≠ [] := by
  have added {pile : Pile} (some_vote : pile.votes ≠ []) : (pile.insert vote).votes ≠ [] := by
    unfold Pile.insert
    split
    · simp
    · exact some_vote
  induction piles with
  | nil =>
      intro pile member
      obtain rfl := List.mem_singleton.mp member
      simp [Pile.insert, Pile.Takes, Pile.Has, Pile.empty]
  | cons head rest ih =>
      obtain ⟨first, others⟩ := List.forall_mem_cons.mp occupied
      unfold pileUp
      split
      · exact List.forall_mem_cons.mpr ⟨added first, others⟩
      · exact List.forall_mem_cons.mpr ⟨first, ih others⟩

theorem Tidy.receive {poll next : Poll} {intake account : Intake} {vote : Vote}
    (tidy : poll.Tidy) (taking : poll.Taking intake vote (next, account))
    : next.Tidy := by
  cases taking with
  | foreign _ | repeated _ _ _ => exact tidy
  | counted _ _ => exact ⟨occupied_pileUp tidy.occupied, tidy.distinctSeconds⟩
  | convicting _ _ _ new =>
      refine ⟨tidy.occupied, ?_⟩
      rw [List.map_append]
      refine List.nodup_append.mpr ⟨tidy.distinctSeconds, by simp, ?_⟩
      rintro second earlier other last rfl
      obtain ⟨known, member, equal⟩ := List.mem_map.mp earlier
      exact new known member (equal.trans (List.mem_singleton.mp last))

theorem Tidy.insert {poll : Poll} (tidy : poll.Tidy) (votes : List Vote)
    : (poll.insert votes).1.Tidy := by
  induction votes using List.reverseRecOn with
  | nil => exact tidy
  | append_singleton rest vote ih =>
      rw [insert_concat]
      exact ih.receive (taking _ _ vote)

-----------------------------------------------------------------------------------------
-- Agreement of the books
-----------------------------------------------------------------------------------------

/-- The vote of a key on the pile of a candidate. -/
def pileVote? (poll : Poll) (key : PublicKey) (candidate : Candidate) : Option Vote :=
  (poll.piles.find? (·.candidate = candidate)).bind fun pile => pile.votes.find? (·.key = key)

/-- The piles, the record of first votes and the evidence tell the same. -/
structure Consistent (poll : Poll) : Prop where
  distinctCandidates : (poll.piles.map Pile.candidate).Nodup
  ofRound : ∀ pile ∈ poll.piles, pile.candidate.round = poll.round
  occupied : ∀ pile ∈ poll.piles, pile.votes ≠ []
  forCandidate : ∀ pile ∈ poll.piles, ∀ vote ∈ pile.votes, vote.candidate = pile.candidate
  /-- A key is on the piles once at most. -/
  piledOnce : (poll.votes.map Vote.key).Nodup
  /-- A key is in the record once at most. -/
  recordedOnce : (poll.voters.map Vote.key).Nodup
  /-- The record tells on which pile a key is, if it is on one. -/
  located
    : ∀ key candidate,
        poll.choices key = some candidate
          ↔ ∃ pile ∈ poll.piles, pile.candidate = candidate ∧ pile.Has key
  /-- What is recorded for a key is found on the piles. -/
  found
    : ∀ key first, poll.firstVote? key = some first →
        poll.pileVote? key first.candidate = some first
  /-- Evidence sets another vote of the round against the counted one. -/
  convicts
    : ∀ known ∈ poll.evidence,
        known.Convicts poll.round ∧ poll.firstVote? known.offender = some known.first
  shownOnce : (poll.evidence.map Equivocation.second).Nodup

section

variable {poll : Poll}

theorem Coherent.located (coherent : poll.Coherent) (key : PublicKey) (candidate : Candidate)
    : poll.choices key = some candidate
      ↔ ∃ pile ∈ poll.piles, pile.candidate = candidate ∧ pile.Has key := by
  rw [coherent.choices_eq_some]
  constructor
  · rintro ⟨vote, member, own, rfl⟩
    obtain ⟨pile, inside, same⟩ := coherent.covered vote member
    exact ⟨pile, inside, same, vote, (coherent.mem_pile_iff inside).mpr ⟨member, same.symm⟩, own⟩
  · rintro ⟨pile, inside, rfl, vote, there, own⟩
    obtain ⟨member, same⟩ := (coherent.mem_pile_iff inside).mp there
    exact ⟨vote, member, own, same⟩

/-- Candidates and keys are distinct, so that the two searches end at the vote that is recorded. -/
theorem Coherent.pileVote?_eq_some (coherent : poll.Coherent) {key : PublicKey} {first : Vote}
    (voted : poll.firstVote? key = some first)
    : poll.pileVote? key first.candidate = some first := by
  have member : first ∈ poll.voters := List.mem_of_find?_eq_some voted
  obtain rfl : first.key = key := by simpa using List.find?_some voted
  obtain ⟨pile, inside, same⟩ := coherent.covered first member
  have there : first ∈ pile.votes := (coherent.mem_pile_iff inside).mpr ⟨member, same.symm⟩
  unfold pileVote?
  cases chosen : poll.piles.find? (·.candidate = first.candidate) with
  | none => simpa [same] using List.find?_eq_none.mp chosen pile inside
  | some other =>
      have equal : other.candidate = first.candidate := by simpa using List.find?_some chosen
      obtain rfl : other = pile :=
        List.inj_on_of_nodup_map coherent.distinctCandidates (List.mem_of_find?_eq_some chosen)
          inside (equal.trans same.symm)
      rw [Option.bind_some]
      cases found : other.votes.find? (·.key = first.key) with
      | none => simpa using List.find?_eq_none.mp found first there
      | some vote =>
          have own : vote.key = first.key := by simpa using List.find?_some found
          have counted := ((coherent.mem_pile_iff inside).mp (List.mem_of_find?_eq_some found)).1
          rw [List.inj_on_of_nodup_map coherent.distinctKeys counted member own]

/-- The books agree if each vote is on its pile, and evidence is set against counted votes. -/
theorem Tidy.consistent (tidy : poll.Tidy) (held : poll.Vouched fun _ => True)
    : poll.Consistent where
  distinctCandidates := held.coherent.distinctCandidates
  ofRound pile inside := by
    obtain ⟨vote, there⟩ := List.exists_mem_of_ne_nil _ (tidy.occupied pile inside)
    obtain ⟨member, same⟩ := (held.coherent.mem_pile_iff inside).mp there
    rw [← same]
    exact held.coherent.ofRound vote member
  occupied := tidy.occupied
  forCandidate pile inside vote there := ((held.coherent.mem_pile_iff inside).mp there).2
  piledOnce := (held.coherent.votes_perm.map Vote.key).nodup_iff.mpr held.coherent.distinctKeys
  recordedOnce := held.coherent.distinctKeys
  located := held.coherent.located
  found _ _ voted := held.coherent.pileVote?_eq_some voted
  convicts known member :=
    ⟨held.convicts known member, held.coherent.firstVote?_eq_some (held.first known member)⟩
  shownOnce := tidy.distinctSeconds

end

-----------------------------------------------------------------------------------------
-- Counts under a roster
-----------------------------------------------------------------------------------------

/-- No pile, and not all of them together, counts more votes than the roster has peers. So the rules
for a supermajority and for a deadlock come down to their thresholds.
-/
structure Bounded (poll : Poll) (roster : Roster) : Prop where
  count : ∀ pile ∈ poll.piles, pile.countIn roster ≤ roster.size
  total : (poll.piles.map (·.countIn roster)).sum ≤ roster.size
  reached
    : ∀ pile ∈ poll.piles,
        Supermajority.Reached (pile.countIn roster) roster.size
          ↔ roster.threshold ≤ pile.countIn roster
  outOfReach
    : ∀ leading,
        let voted := (poll.piles.map (·.countIn roster)).sum
        Supermajority.OutOfReach leading voted roster.size
          ↔ roster.threshold ≤ voted ∧ leading + (roster.size - voted) < roster.threshold

theorem Coherent.bounded {poll : Poll} (coherent : poll.Coherent) (roster : Roster)
    : poll.Bounded roster := by
  have count (pile : Pile) (inside : pile ∈ poll.piles) : pile.countIn roster ≤ roster.size := by
    rw [coherent.countIn_eq roster inside]
    exact roster.card_supporters_le poll.choices pile.candidate
  have total : (poll.piles.map (·.countIn roster)).sum ≤ roster.size := by
    rw [coherent.sum_countIn]
    exact roster.card_participants_le poll.choices
  refine ⟨count, total, fun pile inside => ?_, fun leading => ?_⟩
  · exact ⟨fun reached => reached.2.2, fun enough => ⟨roster.size_pos, count pile inside, enough⟩⟩
  · constructor
    · rintro ⟨-, -, enough, short⟩
      exact ⟨enough, short⟩
    · rintro ⟨enough, short⟩
      exact ⟨roster.size_pos, total, enough, short⟩

-----------------------------------------------------------------------------------------
-- Batches
-----------------------------------------------------------------------------------------

theorem tidy_ofBatches (round : Round) (batches : List (List Vote))
    : (ofBatches round batches).Tidy := by
  rw [ofBatches_eq]
  exact (tidy_empty round).insert _

theorem vouched_ofBatches (round : Round) (batches : List (List Vote))
    : (ofBatches round batches).Vouched fun _ => True := by
  rw [ofBatches_eq]
  exact (vouched_empty round).insert fun _ _ => trivial

theorem firstVote?_ofBatches_append {round : Round} {batches : List (List Vote)} {key : PublicKey}
    {first : Vote} (voted : (ofBatches round batches).firstVote? key = some first)
    (later : List (List Vote))
    : (ofBatches round (batches ++ later)).firstVote? key = some first := by
  rw [ofBatches_eq] at voted ⊢
  rw [List.flatten_append, ← insert_ofVotes]
  exact firstVote?_insert voted later.flatten

/-- Whatever batches of votes come in, the books of a poll agree, and its counts stay within every
roster; the account of a further batch is right, and no later batch changes who was counted first.
-/
theorem books_agree (round : Round) (batches : List (List Vote))
    : let poll := ofBatches round batches
      poll.round = round
      ∧ poll.Consistent
      ∧ (∀ batch, poll.Accounts batch (poll.insert batch).1 (poll.insert batch).2)
      ∧ (∀ key first, poll.firstVote? key = some first → ∀ later,
          (ofBatches round (batches ++ later)).firstVote? key = some first)
      ∧ ∀ roster, poll.Bounded roster := by
  intro poll
  have held := vouched_ofBatches round batches
  refine ⟨round_ofBatches round batches, (tidy_ofBatches round batches).consistent held,
    accounts_insert poll, ?_, held.coherent.bounded⟩
  exact fun key first voted later => firstVote?_ofBatches_append voted later

end Quorum.Poll
