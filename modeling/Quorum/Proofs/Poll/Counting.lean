import Mathlib.Data.Finset.Card
import Mathlib.Data.List.Nodup
import Quorum.Poll
import Quorum.Proofs.Roster.Support

/-! How a poll counts: each key by its first vote. The piles sort the counted votes, so that the
count of a pile is the number of supporters of its candidate.
-/

namespace Quorum

-----------------------------------------------------------------------------------------
-- Taking in votes
-----------------------------------------------------------------------------------------

namespace Poll

/-- The candidate that each key's first vote is for. -/
def choices (poll : Poll) : Choices :=
  fun key => (poll.firstVote? key).map Vote.candidate

/-- The ways in which a vote can be taken in. -/
inductive Taking (poll : Poll) (intake : Intake) (vote : Vote) : Poll × Intake → Prop
  | foreign (other : vote.round ≠ poll.round) : poll.Taking intake vote (poll, intake.misplace)
  /-- It is the first vote of its key. -/
  | counted (same : vote.round = poll.round) (first : poll.firstVote? vote.key = none)
    : poll.Taking intake vote
        ({ poll with voters := poll.voters ++ [vote], piles := pileUp vote poll.piles },
          intake.accept)
  /-- It is for the candidate that its key has voted for, or is evidence already. -/
  | repeated {first : Vote} (same : vote.round = poll.round)
    (voted : poll.firstVote? vote.key = some first)
    (known : first.candidate = vote.candidate ∨ ∃ known ∈ poll.evidence, known.second = vote)
    : poll.Taking intake vote (poll, intake.duplicate)
  /-- It is new evidence against its key. -/
  | convicting {first : Vote} (same : vote.round = poll.round)
    (voted : poll.firstVote? vote.key = some first) (differ : first.candidate ≠ vote.candidate)
    (new : ∀ known ∈ poll.evidence, known.second ≠ vote)
    : poll.Taking intake vote
        ({ poll with evidence := poll.evidence ++ [⟨first, vote⟩] }, intake.equivocate)

theorem taking (poll : Poll) (intake : Intake) (vote : Vote)
    : poll.Taking intake vote (poll.receive intake vote) := by
  unfold receive
  split
  · next other => exact .foreign other
  next same =>
  have same : vote.round = poll.round := not_not.mp same
  cases voted : poll.firstVote? vote.key with
  | none => exact .counted same voted
  | some first =>
      simp only
      split
      · next known => exact .repeated same voted known
      · next unknown =>
          obtain ⟨differ, new⟩ := not_or.mp unknown
          exact .convicting same voted differ fun known member equal => new ⟨known, member, equal⟩

/-- The poll after one more vote, without the account of what became of it. -/
def take (poll : Poll) (vote : Vote) : Poll :=
  (poll.receive .none vote).1

/-- What becomes of the poll does not depend on the account of earlier votes. -/
theorem receive_fst (poll : Poll) (intake : Intake) (vote : Vote)
    : (poll.receive intake vote).1 = poll.take vote := by
  unfold take receive
  split
  · rfl
  · cases poll.firstVote? vote.key with
    | none => rfl
    | some first =>
        simp only
        split <;> rfl

theorem insert_fst (poll : Poll) (votes : List Vote)
    : (poll.insert votes).1 = votes.foldl take poll := by
  have general (intake : Intake)
      : (votes.foldl (fun state vote => state.1.receive state.2 vote) (poll, intake)).1
        = votes.foldl take poll := by
    induction votes generalizing poll intake with
    | nil => rfl
    | cons vote rest ih =>
        rw [List.foldl_cons, List.foldl_cons, ← receive_fst poll intake vote]
        exact ih _ _
  exact general .none

/-- Inserting one batch after the other is inserting them as one. -/
theorem insert_append (poll : Poll) (first second : List Vote)
    : (poll.insert (first ++ second)).1 = ((poll.insert first).1.insert second).1 := by
  simp only [insert_fst, List.foldl_append]

/-- The last vote of a batch is taken in when those before it have been. -/
theorem insert_concat (poll : Poll) (votes : List Vote) (vote : Vote)
    : poll.insert (votes ++ [vote])
      = (poll.insert votes).1.receive (poll.insert votes).2 vote := by
  simp only [insert, List.foldl_append, List.foldl_cons, List.foldl_nil]

theorem take_of_foreign {poll : Poll} {vote : Vote} (foreign : vote.round ≠ poll.round)
    : poll.take vote = poll := by
  simp [take, receive, foreign]

/-- The first vote of a key is counted and put on the pile of its candidate. -/
theorem take_of_first {poll : Poll} {vote : Vote} (same : vote.round = poll.round)
    (first : poll.firstVote? vote.key = none)
    : poll.take vote
      = { poll with voters := poll.voters ++ [vote], piles := pileUp vote poll.piles } := by
  simp [take, receive, same, first]

/-- A further vote of a key leaves all but the evidence. -/
theorem take_of_further {poll : Poll} {vote first : Vote}
    (further : poll.firstVote? vote.key = some first)
    : ∃ evidence, poll.take vote = { poll with evidence } := by
  unfold take receive
  split
  · exact ⟨poll.evidence, rfl⟩
  · rw [further]
    simp only
    split
    · exact ⟨poll.evidence, rfl⟩
    · exact ⟨_, rfl⟩

/-- The vote is counted, or nothing but the evidence changes. -/
theorem take_cases (poll : Poll) (vote : Vote)
    : (∃ evidence, poll.take vote = { poll with evidence })
      ∨ vote.round = poll.round ∧ poll.firstVote? vote.key = none
        ∧ poll.take vote
          = { poll with voters := poll.voters ++ [vote], piles := pileUp vote poll.piles } := by
  by_cases same : vote.round = poll.round
  · cases first : poll.firstVote? vote.key with
    | none => exact .inr ⟨same, rfl, take_of_first same first⟩
    | some _ => exact .inl (take_of_further first)
  · exact .inl ⟨poll.evidence, take_of_foreign same⟩

@[simp] theorem round_take (poll : Poll) (vote : Vote) : (poll.take vote).round = poll.round := by
  rcases poll.take_cases vote with ⟨_, taken⟩ | ⟨-, -, taken⟩ <;> rw [taken]

/-- Votes change nothing but the piles, the record of first votes and the evidence. -/
theorem insert_eq_with (poll : Poll) (votes : List Vote)
    : ∃ piles voters evidence,
        (poll.insert votes).1 = { poll with piles, voters, evidence } := by
  rw [insert_fst]
  induction votes generalizing poll with
  | nil => exact ⟨_, _, _, rfl⟩
  | cons vote rest ih =>
      obtain ⟨piles, voters, evidence, later⟩ := ih (poll.take vote)
      refine ⟨piles, voters, evidence, ?_⟩
      rw [List.foldl_cons, later]
      rcases poll.take_cases vote with ⟨_, taken⟩ | ⟨-, -, taken⟩ <;> rw [taken]

section

variable (poll : Poll) (votes : List Vote)

@[simp] theorem round_insert : (poll.insert votes).1.round = poll.round := by
  obtain ⟨_, _, _, same⟩ := poll.insert_eq_with votes
  rw [same]

@[simp] theorem decision_insert : (poll.insert votes).1.decision = poll.decision := by
  obtain ⟨_, _, _, same⟩ := poll.insert_eq_with votes
  rw [same]

@[simp] theorem futureReported_insert
    : (poll.insert votes).1.futureReported = poll.futureReported := by
  obtain ⟨_, _, _, same⟩ := poll.insert_eq_with votes
  rw [same]

end

-----------------------------------------------------------------------------------------
-- First seen, first counted
-----------------------------------------------------------------------------------------

@[simp] theorem choices_empty (round : Round) (key : PublicKey)
    : (empty round).choices key = none := rfl

/-- The candidate of the first vote of a key in a round. -/
def firstChoice? (round : Round) (votes : List Vote) (key : PublicKey) : Option Candidate :=
  (votes.find? fun vote => decide (vote.round = round ∧ vote.key = key)).map Vote.candidate

/-- One vote settles the choice of its key, unless that was settled before. -/
theorem choices_take (poll : Poll) (vote : Vote) (key : PublicKey)
    : (poll.take vote).choices key
      = (poll.choices key).or (firstChoice? poll.round [vote] key) := by
  by_cases same : vote.round = poll.round
  · cases first : poll.firstVote? vote.key with
    | none =>
        rw [take_of_first same first]
        by_cases own : vote.key = key
        · subst own
          simp only [firstVote?] at first
          simp [choices, firstVote?, firstChoice?, List.find?_append, first, same]
        · simp [choices, firstVote?, firstChoice?, List.find?_append, own]
    | some known =>
        obtain ⟨evidence, taken⟩ := take_of_further first
        rw [taken]
        by_cases own : vote.key = key
        · subst own
          simp [choices, firstVote?, show poll.voters.find? (·.key = vote.key) = _ from first]
        · simp [choices, firstVote?, firstChoice?, own]
  · rw [take_of_foreign same]
    simp [firstChoice?, same]

/-- A batch settles the choices of the keys that vote in it, by their first votes there, unless
they were settled before.
-/
theorem choices_insert (poll : Poll) (votes : List Vote) (key : PublicKey)
    : (poll.insert votes).1.choices key
      = (poll.choices key).or (firstChoice? poll.round votes key) := by
  rw [insert_fst]
  induction votes generalizing poll with
  | nil => simp [firstChoice?]
  | cons vote rest ih =>
      rw [List.foldl_cons, ih, choices_take, round_take, Option.or_assoc]
      congr 1
      by_cases voted : vote.round = poll.round ∧ vote.key = key <;>
        simp [firstChoice?, voted]

theorem choices_insert_extends (poll : Poll) (votes : List Vote)
    : (poll.insert votes).1.choices.Extends poll.choices := by
  intro key candidate choice
  rw [choices_insert, choice, Option.some_or]

-----------------------------------------------------------------------------------------
-- Counted votes in piles
-----------------------------------------------------------------------------------------

/-- The piles sort the first votes, one of each key, by their candidates. -/
structure Coherent (poll : Poll) : Prop where
  distinctKeys : (poll.voters.map Vote.key).Nodup
  ofRound : ∀ vote ∈ poll.voters, vote.round = poll.round
  distinctCandidates : (poll.piles.map Pile.candidate).Nodup
  sorted
    : ∀ pile ∈ poll.piles,
        pile.votes = poll.voters.filter fun vote => decide (vote.candidate = pile.candidate)
  covered : ∀ vote ∈ poll.voters, ∃ pile ∈ poll.piles, pile.candidate = vote.candidate

theorem coherent_empty (round : Round) : (empty round).Coherent where
  distinctKeys := .nil
  ofRound := by simp [empty]
  distinctCandidates := .nil
  sorted := by simp [empty]
  covered := by simp [empty]

/-- Only the votes and the piles matter for coherence. -/
theorem Coherent.congr {poll other : Poll} (coherent : poll.Coherent)
    (round : other.round = poll.round) (voters : other.voters = poll.voters)
    (piles : other.piles = poll.piles)
    : other.Coherent where
  distinctKeys := voters ▸ coherent.distinctKeys
  ofRound := by rw [voters, round]; exact coherent.ofRound
  distinctCandidates := piles ▸ coherent.distinctCandidates
  sorted := by rw [voters, piles]; exact coherent.sorted
  covered := by rw [voters, piles]; exact coherent.covered

@[simp] theorem candidate_insert_pile (pile : Pile) (vote : Vote)
    : (pile.insert vote).candidate = pile.candidate := by
  unfold Pile.insert
  split <;> rfl

theorem votes_insert_pile {pile : Pile} {vote : Vote} (same : pile.candidate = vote.candidate)
    (new : ∀ known ∈ pile.votes, known.key ≠ vote.key)
    : (pile.insert vote).votes = pile.votes ++ [vote] := by
  have takes : pile.Takes vote := ⟨same.symm, fun ⟨known, member, equal⟩ => new known member equal⟩
  simp [Pile.insert, takes]

/-- Piling up adds a candidate only where it has no pile yet. -/
theorem candidates_pileUp (vote : Vote) (piles : List Pile)
    : (pileUp vote piles).map Pile.candidate
      = if vote.candidate ∈ piles.map Pile.candidate then piles.map Pile.candidate
        else piles.map Pile.candidate ++ [vote.candidate] := by
  induction piles with
  | nil => simp [pileUp, Pile.empty]
  | cons pile rest ih =>
      unfold pileUp
      by_cases same : pile.candidate = vote.candidate
      · simp [same]
      · simp only [same, if_false, List.map_cons, ih, List.mem_cons, Ne.symm same, false_or]
        split <;> rfl

/-- A pile after piling up is an old one of another candidate, or the one that got the vote. -/
theorem mem_pileUp {vote : Vote} {piles : List Pile} {pile : Pile}
    (distinct : (piles.map Pile.candidate).Nodup) (member : pile ∈ pileUp vote piles)
    : (pile ∈ piles ∧ pile.candidate ≠ vote.candidate)
      ∨ (∃ old ∈ piles, old.candidate = vote.candidate ∧ pile = old.insert vote)
      ∨ ((∀ old ∈ piles, old.candidate ≠ vote.candidate)
        ∧ pile = (Pile.empty vote.candidate).insert vote) := by
  induction piles with
  | nil => exact .inr (.inr ⟨by simp, List.mem_singleton.mp member⟩)
  | cons head rest ih =>
      obtain ⟨absent, distinct_rest⟩ := List.nodup_cons.mp distinct
      unfold pileUp at member
      by_cases same : head.candidate = vote.candidate
      · rw [if_pos same] at member
        rcases List.mem_cons.mp member with rfl | later
        · exact .inr (.inl ⟨head, List.mem_cons_self, same, rfl⟩)
        · refine .inl ⟨List.mem_cons_of_mem _ later, fun equal => absent ?_⟩
          rw [same, ← equal]
          exact List.mem_map_of_mem later
      · rw [if_neg same] at member
        rcases List.mem_cons.mp member with rfl | later
        · exact .inl ⟨List.mem_cons_self, same⟩
        · rcases ih distinct_rest later with
            ⟨old, differs⟩ | ⟨old, inside, equal, grown⟩ | ⟨none, fresh⟩
          · exact .inl ⟨List.mem_cons_of_mem _ old, differs⟩
          · exact .inr (.inl ⟨old, List.mem_cons_of_mem _ inside, equal, grown⟩)
          · exact .inr (.inr ⟨List.forall_mem_cons.mpr ⟨same, none⟩, fresh⟩)

theorem firstVote?_eq_none {poll : Poll} {key : PublicKey}
    : poll.firstVote? key = none ↔ ∀ known ∈ poll.voters, known.key ≠ key := by
  simp [firstVote?]

/-- After the first vote of a key each pile still holds all counted votes for its candidate. -/
theorem Coherent.sorted_pileUp {poll : Poll} (coherent : poll.Coherent) {vote : Vote}
    (new : ∀ known ∈ poll.voters, known.key ≠ vote.key) {pile : Pile}
    (member : pile ∈ pileUp vote poll.piles)
    : pile.votes
      = (poll.voters ++ [vote]).filter fun known => decide (known.candidate = pile.candidate) := by
  rw [List.filter_append]
  rcases mem_pileUp coherent.distinctCandidates member with
    ⟨old, differs⟩ | ⟨old, inside, equal, rfl⟩ | ⟨absent, rfl⟩
  · simp [coherent.sorted pile old, Ne.symm differs]
  · have votes := coherent.sorted old inside
    have fresh (known : Vote) (there : known ∈ old.votes) : known.key ≠ vote.key := by
      rw [votes] at there
      exact new known (List.mem_of_mem_filter there)
    rw [votes_insert_pile equal fresh, candidate_insert_pile, votes, equal]
    simp
  · have nobody
        : poll.voters.filter (fun known => decide (known.candidate = vote.candidate)) = [] := by
      rw [List.filter_eq_nil_iff]
      intro known there equal
      obtain ⟨pile, inside, candidate⟩ := coherent.covered known there
      exact absent pile inside (candidate.trans (of_decide_eq_true equal))
    simp [Pile.insert, Pile.Takes, Pile.Has, Pile.empty, nobody]

/-- After the first vote of a key every counted vote has a pile. -/
theorem Coherent.covered_pileUp {poll : Poll} (coherent : poll.Coherent) {vote known : Vote}
    (member : known ∈ poll.voters ++ [vote])
    : ∃ pile ∈ pileUp vote poll.piles, pile.candidate = known.candidate := by
  have listed : known.candidate ∈ (pileUp vote poll.piles).map Pile.candidate := by
    rw [candidates_pileUp]
    rcases List.mem_append.mp member with earlier | last
    · obtain ⟨pile, inside, candidate⟩ := coherent.covered known earlier
      have old := candidate ▸ List.mem_map_of_mem (f := Pile.candidate) inside
      split
      · exact old
      · exact List.mem_append_left _ old
    · rw [List.mem_singleton.mp last]
      split
      · assumption
      · simp
  exact List.mem_map.mp listed

/-- Taking in a vote keeps the piles in order. -/
theorem Coherent.take {poll : Poll} (coherent : poll.Coherent) (vote : Vote)
    : (poll.take vote).Coherent := by
  rcases poll.take_cases vote with ⟨evidence, taken⟩ | ⟨same, first, taken⟩ <;> rw [taken]
  · exact coherent.congr rfl rfl rfl
  · have new := firstVote?_eq_none.mp first
    constructor
    · simp only [List.map_append, List.map_cons, List.map_nil]
      refine List.nodup_append.mpr ⟨coherent.distinctKeys, by simp, ?_⟩
      rintro key earlier later last equal
      obtain ⟨known, member, rfl⟩ := List.mem_map.mp earlier
      exact new known member (equal.trans (List.mem_singleton.mp last))
    · intro known member
      rcases List.mem_append.mp member with earlier | last
      · exact coherent.ofRound known earlier
      · exact (List.mem_singleton.mp last) ▸ same
    · rw [candidates_pileUp]
      split
      · exact coherent.distinctCandidates
      · next absent =>
          refine List.nodup_append.mpr ⟨coherent.distinctCandidates, by simp, ?_⟩
          rintro candidate earlier other last rfl
          exact absent (List.mem_singleton.mp last ▸ earlier)
    · exact fun pile member => coherent.sorted_pileUp new member
    · exact fun known member => coherent.covered_pileUp member

/-- Inserting a batch keeps the piles in order, vote by vote. -/
theorem Coherent.insert {poll : Poll} (coherent : poll.Coherent) (votes : List Vote)
    : (poll.insert votes).1.Coherent := by
  rw [insert_fst]
  induction votes generalizing poll with
  | nil => exact coherent
  | cons vote rest ih => exact ih (coherent.take vote)

/-- A counted vote is the first one of its key. -/
theorem Coherent.firstVote?_eq_some {poll : Poll} (coherent : poll.Coherent) {vote : Vote}
    (member : vote ∈ poll.voters)
    : poll.firstVote? vote.key = some vote := by
  cases found : poll.firstVote? vote.key with
  | none => exact absurd rfl (firstVote?_eq_none.mp found vote member)
  | some first =>
      have same : first.key = vote.key := by simpa using List.find?_some found
      rw [List.inj_on_of_nodup_map coherent.distinctKeys (List.mem_of_find?_eq_some found) member
        same]

/-- A choice is the candidate of a counted vote of the key. -/
theorem Coherent.choices_eq_some {poll : Poll} (coherent : poll.Coherent) {key : PublicKey}
    {candidate : Candidate}
    : poll.choices key = some candidate
      ↔ ∃ vote ∈ poll.voters, vote.key = key ∧ vote.candidate = candidate := by
  constructor
  · intro choice
    obtain ⟨vote, found, rfl⟩ := Option.map_eq_some_iff.mp choice
    exact ⟨vote, List.mem_of_find?_eq_some found, by simpa using List.find?_some found, rfl⟩
  · rintro ⟨vote, member, rfl, rfl⟩
    rw [choices, coherent.firstVote?_eq_some member, Option.map_some]

/-- A counted vote is on the pile of its candidate, and no other one. -/
theorem Coherent.mem_pile_iff {poll : Poll} (coherent : poll.Coherent) {pile : Pile}
    (inside : pile ∈ poll.piles) {vote : Vote}
    : vote ∈ pile.votes ↔ vote ∈ poll.voters ∧ vote.candidate = pile.candidate := by
  rw [coherent.sorted pile inside, List.mem_filter, decide_eq_true_iff]

theorem Coherent.nodup_voters {poll : Poll} (coherent : poll.Coherent) : poll.voters.Nodup :=
  coherent.distinctKeys.of_map

-----------------------------------------------------------------------------------------
-- Counts
-----------------------------------------------------------------------------------------

/-- The votes in the piles are the counted ones; a vote is only in the pile of its candidate. -/
theorem Coherent.votes_perm {poll : Poll} (coherent : poll.Coherent)
    : poll.votes.Perm poll.voters := by
  have apart : poll.piles.Pairwise fun first second => first.candidate ≠ second.candidate :=
    List.pairwise_map.mp coherent.distinctCandidates
  have nodup : poll.votes.Nodup := by
    refine List.nodup_flatMap.mpr ⟨?_, ?_⟩
    · intro pile member
      rw [coherent.sorted pile member]
      exact coherent.nodup_voters.filter _
    · refine apart.imp_of_mem fun first second differ vote there here => differ ?_
      obtain ⟨-, candidate⟩ := (coherent.mem_pile_iff first).mp there
      obtain ⟨-, candidate'⟩ := (coherent.mem_pile_iff second).mp here
      exact candidate.symm.trans candidate'
  refine (List.perm_ext_iff_of_nodup nodup coherent.nodup_voters).mpr fun vote => ?_
  rw [votes, List.mem_flatMap]
  constructor
  · rintro ⟨pile, inside, there⟩
    exact ((coherent.mem_pile_iff inside).mp there).1
  · intro member
    obtain ⟨pile, inside, candidate⟩ := coherent.covered vote member
    exact ⟨pile, inside, (coherent.mem_pile_iff inside).mpr ⟨member, candidate.symm⟩⟩

/-- Counting a roster's keys by their choices is counting the votes by these keys. -/
theorem Coherent.card_filter_keys {poll : Poll} (coherent : poll.Coherent) (roster : Roster)
    (property : Candidate → Prop) [DecidablePred property]
    : (roster.keys.filter fun key => ∃ candidate ∈ poll.choices key, property candidate).card
      = poll.voters.countP fun vote =>
          decide (roster.Has vote.key) && decide (property vote.candidate) := by
  let counted := poll.voters.filter fun vote =>
    decide (roster.Has vote.key) && decide (property vote.candidate)
  have nodup : (counted.map Vote.key).Nodup :=
    coherent.distinctKeys.sublist (List.filter_sublist.map _)
  have same
      : (roster.keys.filter fun key => ∃ candidate ∈ poll.choices key, property candidate)
        = (counted.map Vote.key).toFinset := by
    ext key
    simp only [counted, Finset.mem_filter, Roster.mem_keys, Option.mem_def, List.mem_toFinset,
      List.mem_map, List.mem_filter, coherent.choices_eq_some, Bool.and_eq_true,
      decide_eq_true_eq]
    constructor
    · rintro ⟨has, candidate, ⟨vote, member, rfl, rfl⟩, holds⟩
      exact ⟨vote, ⟨member, has, holds⟩, rfl⟩
    · rintro ⟨vote, ⟨member, has, holds⟩, rfl⟩
      exact ⟨has, vote.candidate, ⟨vote, member, rfl, rfl⟩, holds⟩
  rw [same, List.toFinset_card_of_nodup nodup, List.length_map, List.countP_eq_length_filter]

/-- The supporters of a candidate are as many as the peers' votes for it. -/
theorem Coherent.card_supporters {poll : Poll} (coherent : poll.Coherent) (roster : Roster)
    (candidate : Candidate)
    : (roster.supporters poll.choices candidate).card
      = poll.voters.countP fun vote =>
          decide (roster.Has vote.key) && decide (vote.candidate = candidate) := by
  rw [← coherent.card_filter_keys roster (· = candidate)]
  congr 1
  ext key
  simp

/-- The participants are as many as the peers' votes. -/
theorem Coherent.card_participants {poll : Poll} (coherent : poll.Coherent) (roster : Roster)
    : (roster.participants poll.choices).card
      = poll.voters.countP fun vote => decide (roster.Has vote.key) := by
  have all := coherent.card_filter_keys roster fun _ => True
  simp only [decide_true, Bool.and_true] at all
  rw [← all]
  congr 1
  ext key
  simp [Option.ne_none_iff_exists']

/-- A pile counts the supporters of its candidate. -/
theorem Coherent.countIn_eq {poll : Poll} (coherent : poll.Coherent) (roster : Roster)
    {pile : Pile} (member : pile ∈ poll.piles)
    : pile.countIn roster = (roster.supporters poll.choices pile.candidate).card := by
  rw [coherent.card_supporters, Pile.countIn, coherent.sorted pile member, List.countP_filter]

/-- The counts of all piles add up to the number of participants. -/
theorem Coherent.sum_countIn {poll : Poll} (coherent : poll.Coherent) (roster : Roster)
    : (poll.piles.map (·.countIn roster)).sum = (roster.participants poll.choices).card := by
  rw [coherent.card_participants, ← coherent.votes_perm.countP_eq, votes, List.countP_flatMap]
  rfl

/-- A candidate with a supporter has a pile. -/
theorem Coherent.exists_pile {poll : Poll} (coherent : poll.Coherent) {key : PublicKey}
    {candidate : Candidate} (choice : poll.choices key = some candidate)
    : ∃ pile ∈ poll.piles, pile.candidate = candidate := by
  obtain ⟨vote, member, -, rfl⟩ := coherent.choices_eq_some.mp choice
  exact coherent.covered vote member

end Poll

end Quorum
