import Mathlib
import Quorum.Proofs.Gate.Decisions
import Quorum.Proofs.Gate.Provenance
import Quorum.Proofs.Poll.Certificate
import Quorum.Proofs.Wire.Sizes

/-! What a gate sends, and whether it fits a frame. An own vote is short, but a decision is sent
with all the votes that it rests on. Each of them came in a frame of its own, with hashes of any
length, so that together they may be too long for one.
-/

namespace Quorum

-----------------------------------------------------------------------------------------
-- Credentials
-----------------------------------------------------------------------------------------

/-- Only votes of the usual lengths are signed and accepted. -/
structure Credentials.Standard (credentials : Credentials) : Prop where
  signed
    : ∀ candidate vote, credentials.sign candidate = .ok vote →
        vote.candidate = candidate ∧ vote.Standard
  accepted : ∀ vote, credentials.accepts vote = true → vote.Standard

theorem Signing.Ed25519.length_sign (seed key message : Bytes)
    : (sign seed key message).length = 64 := by
  simp [sign, Edwards.Point.encode]

theorem Keypair.length_publicBytes_ofSeed {algorithm : Algorithm} {seed : Bytes} {keypair : Keypair}
    (made : ofSeed algorithm seed = .ok keypair)
    : keypair.publicBytes.length = 32 := by
  unfold ofSeed at made
  split at made <;> cases made
  simp [Signing.Ed25519.publicKey, Signing.Edwards.Point.encode]

/-- What is verified has a key and a signature of the usual lengths. -/
theorem PublicKey.standard_of_verify {vote : Vote} {message : Bytes}
    (verified : vote.key.verify message vote.signature = .ok ())
    : vote.Standard := by
  have verified
      : Signing.Ed25519.verify vote.key.bytes (vote.key.algorithm.digest message)
          vote.signature.bytes
        = .ok () := by
    unfold verify at verified
    split at verified
    · cases verified
    · assumption
  unfold Signing.Ed25519.verify at verified
  split at verified
  · cases verified
  next key =>
  split at verified
  · cases verified
  split at verified
  · cases verified
  next wellFormed => exact ⟨(not_not.mp wellFormed).1, not_not.mp key⟩

/-- Credentials with the keypair of a seed, or for checking only, are standard. -/
theorem Credentials.standard_ofKeypair {keypair : Option Keypair}
    (seeded : ∀ own ∈ keypair, ∃ algorithm seed, Keypair.ofSeed algorithm seed = .ok own)
    : (ofKeypair keypair).Standard where
  signed candidate vote signed := by
    cases keypair with
    | none => cases signed
    | some own =>
        cases signed
        obtain ⟨algorithm, seed, made⟩ := seeded own rfl
        exact ⟨rfl, Signing.Ed25519.length_sign .., Keypair.length_publicBytes_ofSeed made⟩
  accepted vote accepted := by
    simp only [ofKeypair] at accepted
    split at accepted
    · next verified => exact PublicKey.standard_of_verify verified
    · cases accepted

-----------------------------------------------------------------------------------------
-- Votes of decisions
-----------------------------------------------------------------------------------------

namespace Poll

/-- An outcome rests on counted votes, by different peers of one roster. -/
theorem Coherent.grounds {poll : Poll} {electorate : Electorate} {outcome : Outcome}
    (coherent : poll.Coherent) (reached : poll.outcome? electorate = some outcome)
    : (outcome.votes.map Vote.key).Nodup
      ∧ (∀ vote ∈ outcome.votes, vote ∈ poll.voters)
      ∧ ∃ side roster,
          electorate.roster? side = some roster ∧ ∀ vote ∈ outcome.votes, roster.Has vote.key := by
  cases outcome?_eq_some_iff.mp reached with
  | decided seat verdict _ =>
      have certifies := coherent.certifies seat verdict
      refine ⟨certifies.distinctKeys, ?_, _, _, seat, certifies.byPeers⟩
      exact fun vote member => ((coherent.mem_votes_of_decided verdict).mp member).1
  | rejected verdict _ =>
      have listed := coherent.votes_of_rejected verdict
      have among (vote : Vote) (member : vote ∈ _) := List.mem_filter.mp (listed.mem_iff.mp member)
      refine ⟨?_, fun vote member => (among vote member).1, .primary, _, rfl, ?_⟩
      · refine (listed.map Vote.key).nodup_iff.mpr ?_
        exact coherent.distinctKeys.sublist (List.filter_sublist.map _)
      · exact fun vote member => of_decide_eq_true (among vote member).2

end Poll

/-- Votes by different peers of a roster are not more than these. -/
theorem Roster.length_le_size {roster : Roster} {votes : List Vote}
    (distinct : (votes.map Vote.key).Nodup) (byPeers : ∀ vote ∈ votes, roster.Has vote.key)
    : votes.length ≤ roster.size := by
  rw [← roster.card_keys, ← List.length_map Vote.key, ← List.toFinset_card_of_nodup distinct]
  refine Finset.card_le_card fun key member => ?_
  obtain ⟨vote, inside, rfl⟩ := List.mem_map.mp (List.mem_toFinset.mp member)
  exact roster.mem_keys.mpr (byPeers vote inside)

namespace Gate

/-- The votes were let in by calls for the round, and are by different peers of a roster that a call
has named.
-/
structure Grounded (settings : Settings) (deeds : List Deed) (round : Round) (votes : List Vote)
    : Prop where
  distinctKeys : (votes.map Vote.key).Nodup
  admitted : ∀ vote ∈ votes, ∃ deed ∈ deeds, deed.Admits settings round vote
  byPeers
    : ∃ entry ∈ deeds.filterMap Deed.supplied?, ∃ side roster,
        entry.2.roster? side = some roster ∧ ∀ vote ∈ votes, roster.Has vote.key

theorem Grounded.append {settings : Settings} {deeds : List Deed} {round : Round}
    {votes : List Vote} (grounded : Grounded settings deeds round votes) (later : List Deed)
    : Grounded settings (deeds ++ later) round votes where
  distinctKeys := grounded.distinctKeys
  admitted vote member := by
    obtain ⟨deed, inside, admits⟩ := grounded.admitted vote member
    exact ⟨deed, List.mem_append_left _ inside, admits⟩
  byPeers := by
    obtain ⟨entry, supplied, roster⟩ := grounded.byPeers
    rw [List.filterMap_append]
    exact ⟨entry, List.mem_append_left _ supplied, roster⟩

section

variable {settings : Settings} {window : UInt64} {deeds : List Deed} {gate : Gate}

/-- A call decides a round by votes that were let in. -/
theorem Run.grounded_of_freezes (run : Run settings window deeds gate) (call : Call)
    (due : call.Due deeds) {round : Round} {outcome : Outcome}
    (freezes : (call.deed settings gate).Freezes round outcome)
    : Grounded settings (deeds ++ [call.deed settings gate]) round outcome.votes := by
  have vouched := (run.next call due).vouched.poll round
  obtain ⟨electorate, decides, named⟩ := freezes.decides (call.done settings gate)
  obtain ⟨distinct, counted, side, roster, seat, byPeers⟩ := vouched.coherent.grounds decides
  refine ⟨distinct, fun vote member => vouched.voters vote (counted vote member), ?_⟩
  rw [List.filterMap_append]
  rcases named with named | ⟨-, -, consulted⟩
  · refine ⟨(round, electorate), List.mem_append_right _ ?_, side, roster, seat, byPeers⟩
    exact List.mem_filterMap.mpr ⟨_, List.mem_singleton_self _, named⟩
  · have supplied := run.consults.supplied electorate consulted
    exact ⟨_, List.mem_append_left _ supplied, side, roster, seat, byPeers⟩

/-- Every decision that is kept rests on votes that were let in; by induction on the calls. -/
theorem Run.grounded (run : Run settings window deeds gate) {round : Round} {outcome : Outcome}
    (known : gate.book.decision round = some outcome)
    : Grounded settings deeds round outcome.votes := by
  induction run with
  | start => simp [initial, PollBook.empty, PollBook.decision, PollBook.poll, PollBook.poll?,
      Poll.empty] at known
  | @next deeds gate run call due ih =>
      have done := call.done settings gate
      rcases Deed.decided_before_or_freezes done run.recorded.trimmed known with earlier | freezes
      · exact (ih earlier).append _
      · exact run.grounded_of_freezes call due freezes

/-- Before each of its calls a gate has run, with the calls before. -/
theorem Run.exists_before (run : Run settings window deeds gate) {deed : Deed}
    (member : deed ∈ deeds)
    : ∃ earlier, earlier ⊆ deeds ∧ Run settings window earlier deed.before := by
  induction run with
  | start => cases member
  | @next deeds gate run call _ ih =>
      rcases List.mem_append.mp member with earlier | last
      · obtain ⟨before, inside, run⟩ := ih earlier
        exact ⟨before, List.subset_append_of_subset_left _ inside, run⟩
      · obtain rfl := List.mem_singleton.mp last
        exact ⟨deeds, List.subset_append_left _ _, run⟩

-----------------------------------------------------------------------------------------
-- What is sent
-----------------------------------------------------------------------------------------

/-- The ways in which a call can send votes. -/
inductive Deed.Sends (settings : Settings) (deeds : List Deed) (deed : Deed) (votes : List Vote)
    : Prop
  /-- An own vote is sent, for the first time or again. -/
  | ballot {voting : Deed} {round : Round} {vote : Vote}
    (unasked : ∀ bundle, deed.call ≠ .receive bundle) (member : voting ∈ deeds)
    (casts : voting.Casts settings round vote) (same : votes = [vote])
  /-- Votes for a round that is decided are answered with the decision. -/
  | answer {bundle : List Vote} {round : Round} {decision : Outcome}
    (call : deed.call = .receive bundle)
    (known : deed.before.book.decision round = some decision) (same : votes = decision.votes)

theorem Run.sends (run : Run settings window deeds gate) {deed : Deed} (member : deed ∈ deeds)
    {peer : Peer} {votes : List Vote} (sent : .send peer votes ∈ deed.effects)
    : deed.Sends settings deeds votes := by
  have bundled := mem_bundles.mpr ⟨peer, sent⟩
  have ballot {round : Round} (broadcast : (round, votes) ∈ deed.broadcasts)
      (unasked : ∀ bundle, deed.call ≠ .receive bundle)
      : deed.Sends settings deeds votes := by
    obtain ⟨voting, inside, vote, casts, same⟩ := run.exists_casts_of_broadcast member broadcast
    exact .ballot unasked inside casts same
  cases run.done deed member with
  | vote _ => exact ballot (List.mem_map_of_mem bundled) nofun
  | rebroadcast _ => exact ballot (List.mem_map_of_mem bundled) nofun
  | switch ends => exact (ends.inward _ sent).elim
  | receive ends =>
      cases ends with
      | ignored => cases sent
      | dropped => simp at sent
      | answered _ _ _ known _ => exact .answer rfl known (bundles_of_sends bundled)
      | collected _ _ _ _ _ tally => exact (tally.inward _ sent).elim
  | stop _ => cases sent

end

-----------------------------------------------------------------------------------------
-- Sizes
-----------------------------------------------------------------------------------------

/-- Bundles came in frames, own hashes have at most 64 bytes each, and rosters at most 1000 peers.
-/
structure Modest (deeds : List Deed) : Prop where
  arrived : ∀ deed ∈ deeds, ∀ votes, deed.call = .receive votes → Wire.Arrived votes
  own
    : ∀ deed ∈ deeds, ∀ candidate electorate, deed.call = .vote candidate electorate →
        candidate.proposal.length ≤ 64 ∧ candidate.block.length ≤ 64
  rosters
    : ∀ deed ∈ deeds, ∀ round electorate, deed.supplied? = some (round, electorate) →
        ∀ side roster, electorate.roster? side = some roster → roster.size ≤ 1000

section

variable {settings : Settings} {deeds : List Deed} {deed : Deed} {round : Round} {vote : Vote}

theorem Modest.subset {earlier : List Deed} (modest : Modest deeds) (inside : earlier ⊆ deeds)
    : Modest earlier where
  arrived deed member := modest.arrived deed (inside member)
  own deed member := modest.own deed (inside member)
  rosters deed member := modest.rosters deed (inside member)

/-- An own vote is short. -/
theorem Modest.ballot (modest : Modest deeds) (standard : settings.credentials.Standard)
    (member : deed ∈ deeds) (casts : deed.Casts settings round vote)
    : vote.Standard ∧ Wire.Fits [vote] := by
  obtain ⟨-, candidate, electorate, call, signed⟩ := casts
  obtain ⟨proposal, block⟩ := modest.own deed member candidate electorate call
  obtain ⟨rfl, sized⟩ := standard.signed candidate vote signed
  refine ⟨sized, Wire.fits_of_hashLength_le (List.forall_mem_singleton.mpr sized) (Nat.le_refl 1)
    (List.forall_mem_singleton.mpr (Nat.add_le_add proposal block)) (by decide)⟩

/-- Each vote that was let in fits a frame alone. -/
theorem Modest.fits_of_admits (modest : Modest deeds) (standard : settings.credentials.Standard)
    (member : deed ∈ deeds) (admits : deed.Admits settings round vote)
    : vote.Standard ∧ Wire.Fits [vote] := by
  cases admits with
  | cast casts => exact modest.ballot standard member casts
  | heard call _ genuine inside _ _ =>
      refine ⟨standard.accepted vote (genuine vote inside), ?_⟩
      exact (modest.arrived deed member _ call).fits.single inside

end

/-- A gate sends own votes, which fit a frame, and decisions, whose votes fit one frame each; they
fit one together just if all of their hashes leave room for the fixed part of each vote. That is so
if no vote has hashes of more than 4049 bytes.
-/
theorem sent_bundles_fit {settings : Settings} {window : UInt64} {deeds : List Deed} {gate : Gate}
    (run : Run settings window deeds gate) (standard : settings.credentials.Standard)
    (modest : Modest deeds)
    : ∀ deed ∈ deeds, ∀ peer votes, .send peer votes ∈ deed.effects →
        votes.length ≤ 1000 ∧ (votes.map Vote.key).Nodup
        ∧ (∀ vote ∈ votes, Wire.Fits [vote])
        ∧ ((∀ bundle, deed.call ≠ .receive bundle) → Wire.Fits votes)
        ∧ (Wire.Fits votes
          ↔ Wire.Message.overhead
              + (votes.map fun vote => Wire.Entry.overhead + vote.candidate.hashLength).sum
            ≤ Frame.limit)
        ∧ ((∀ vote ∈ votes, vote.candidate.hashLength ≤ 4049) → Wire.Fits votes) := by
  intro deed member peer votes sent
  cases run.sends member sent with
  | @ballot _ _ vote _ inside casts same =>
      obtain rfl := same
      obtain ⟨sized, fits⟩ := modest.ballot standard inside casts
      refine ⟨by simp, List.nodup_singleton _, List.forall_mem_singleton.mpr fits, fun _ => fits,
        Wire.fits_iff_of_standard (List.forall_mem_singleton.mpr sized), fun _ => fits⟩
  | @answer bundle round decision call known same =>
      obtain rfl := same
      obtain ⟨earlier, inside, run⟩ := run.exists_before member
      have modest := modest.subset inside
      have grounded := run.grounded known
      have each (vote : Vote) (counted : vote ∈ decision.votes)
          : vote.Standard ∧ Wire.Fits [vote] := by
        obtain ⟨deed, member, admits⟩ := grounded.admitted vote counted
        exact modest.fits_of_admits standard member admits
      have sized := fun vote counted => (each vote counted).1
      have few : decision.votes.length ≤ 1000 := by
        obtain ⟨⟨round, electorate⟩, supplied, side, roster, seat, byPeers⟩ := grounded.byPeers
        obtain ⟨deed, member, named⟩ := List.mem_filterMap.mp supplied
        exact (Roster.length_le_size grounded.distinctKeys byPeers).trans
          (modest.rosters deed member round electorate named side roster seat)
      refine ⟨few, grounded.distinctKeys, fun vote counted => (each vote counted).2,
        fun unasked => absurd call (unasked bundle), Wire.fits_iff_of_standard sized, ?_⟩
      exact fun short => Wire.fits_of_hashLength_le sized few short (by decide)

-----------------------------------------------------------------------------------------
-- A decision with a long hash
-----------------------------------------------------------------------------------------

/-- The key of a number, of the usual length. -/
def longKey (number : UInt8) : PublicKey :=
  ⟨.ed25519Sha256, List.replicate 31 0 ++ [number]⟩

/-- The vote of a number for a block that nobody else votes for, with a signature of the usual
length.
-/
def longVote (number : UInt8) (block : Bytes) : Vote :=
  ⟨⟨⟨5, 0⟩, [number], block⟩, ⟨List.replicate 64 0⟩, longKey number⟩

/-- Settings under which all votes of the usual lengths are accepted. -/
def longSettings : Settings where
  credentials :=
    { sign candidate := .ok ⟨candidate, ⟨List.replicate 64 0⟩, longKey 1⟩
      accepts vote := decide (vote.signature.bytes.length = 64 ∧ vote.key.bytes.length = 32) }
  rebroadcasts := 0

theorem standard_longSettings : longSettings.credentials.Standard where
  signed candidate vote signed := by
    cases signed
    exact ⟨rfl, List.length_replicate, by simp [longKey]⟩
  accepted vote accepted := by
    obtain ⟨signature, key⟩ := of_decide_eq_true accepted
    exact ⟨signature, key⟩

def longRoster : Roster where
  peers := [⟨"a", longKey 1⟩, ⟨"b", longKey 2⟩, ⟨"c", longKey 3⟩, ⟨"d", longKey 4⟩]
  nonempty := by decide
  ascending := by decide +kernel
  distinctKeys := by decide

theorem standard_longVote (number : UInt8) (block : Bytes) : (longVote number block).Standard :=
  ⟨List.length_replicate, by simp [longVote, longKey]⟩

theorem fits_longVote {number : UInt8} {block : Bytes} (short : block.length ≤ 4194146)
    : Wire.Fits [longVote number block] := by
  rw [Wire.fits_iff_of_standard (List.forall_mem_singleton.mpr (standard_longVote ..))]
  simp only [longVote, Candidate.hashLength, Wire.Message.overhead, Wire.Entry.overhead,
    Frame.limit, List.map_cons, List.map_nil, List.sum_singleton, List.length_singleton]
  omega

/-- The gate votes for one block, and the others for three more. -/
def rejectionCalls (block : Bytes) : List Call :=
  [.vote ⟨⟨5, 0⟩, [1], [1]⟩ ⟨longRoster, none⟩, .receive [longVote 2 [2]],
    .receive [longVote 3 block], .receive [longVote 4 [4]]]

/-- The gate rejects the round when it has heard of three blocks, and answers the last vote with
those for the three, however long the third block is.
-/
theorem exists_rejection (block : Bytes)
    : ∃ deeds gate,
        Run longSettings 10 deeds gate
        ∧ deeds.map Deed.call = rejectionCalls block
        ∧ deeds.filterMap Deed.supplied? = [(⟨5, 0⟩, ⟨longRoster, none⟩)]
        ∧ ∃ deed ∈ deeds,
            .send ⟨"d", longKey 4⟩ [longVote 1 [1], longVote 2 [2], longVote 3 block]
              ∈ deed.effects := by
  have voted := (Run.start : Run longSettings 10 [] _).next
    (.vote ⟨⟨5, 0⟩, [1], [1]⟩ ⟨longRoster, none⟩) trivial
  have second := voted.next (.receive [longVote 2 [2]]) trivial
  have third := second.next (.receive [longVote 3 block]) trivial
  have last := third.next (.receive [longVote 4 [4]]) trivial
  refine ⟨_, _, last, by cbv, by cbv, _, List.mem_append_right _ (List.mem_singleton_self _), ?_⟩
  refine List.mem_of_getElem? (i := 0) ?_
  cbv

theorem modest_of_rejection {deeds : List Deed} {block : Bytes} (short : block.length ≤ 4194146)
    (calls : deeds.map Deed.call = rejectionCalls block)
    (supplied : deeds.filterMap Deed.supplied? = [(⟨5, 0⟩, ⟨longRoster, none⟩)])
    : Modest deeds := by
  have made {deed : Deed} (member : deed ∈ deeds) : deed.call ∈ rejectionCalls block :=
    calls ▸ List.mem_map_of_mem member
  constructor
  · intro deed member votes call
    have among : Call.receive votes ∈ rejectionCalls block := call ▸ made member
    obtain rfl | rfl | rfl
        : votes = [longVote 2 [2]] ∨ votes = [longVote 3 block] ∨ votes = [longVote 4 [4]] := by
      simpa [rejectionCalls] using among
    · exact (fits_longVote (by decide)).arrived
    · exact (fits_longVote short).arrived
    · exact (fits_longVote (by decide)).arrived
  · intro deed member candidate electorate call
    have among : Call.vote candidate electorate ∈ rejectionCalls block := call ▸ made member
    obtain ⟨rfl, rfl⟩ : candidate = ⟨⟨5, 0⟩, [1], [1]⟩ ∧ electorate = ⟨longRoster, none⟩ := by
      simpa [rejectionCalls] using among
    decide
  · intro deed member round electorate named side roster seat
    have among := List.mem_filterMap.mpr ⟨deed, member, named⟩
    rw [supplied] at among
    cases List.mem_singleton.mp among
    obtain rfl := Electorate.eq_of_seat seat
    decide

/-- A decision with three short hashes is sent, and fits a frame. -/
theorem sent_bundles_fit_of_rejection
    : ∃ deeds gate,
        Run longSettings 10 deeds gate ∧ longSettings.credentials.Standard ∧ Modest deeds
        ∧ ∃ deed ∈ deeds, ∃ peer votes,
            .send peer votes ∈ deed.effects ∧ votes.length = 3 ∧ Wire.Fits votes := by
  obtain ⟨deeds, gate, run, calls, supplied, deed, member, sent⟩ := exists_rejection [3]
  have modest := modest_of_rejection (by decide) calls supplied
  obtain ⟨-, -, -, -, -, fits⟩ :=
    sent_bundles_fit run standard_longSettings modest deed member _ _ sent
  exact ⟨deeds, gate, run, standard_longSettings, modest, deed, member, _, _, sent, rfl,
    fits (by decide)⟩

/-- Not all that a gate sends fits a frame. The third of the votes comes in a full frame, and is
sent on with two others.
-/
theorem not_sent_bundles_fit
    : ¬ ∀ (settings : Settings) (window : UInt64) (deeds : List Deed) (gate : Gate),
        Run settings window deeds gate → settings.credentials.Standard → Modest deeds →
        ∀ deed ∈ deeds, ∀ peer votes, .send peer votes ∈ deed.effects → Wire.Fits votes := by
  intro all
  obtain ⟨block, full⟩ : ∃ block : Bytes, block.length = 4194146 :=
    ⟨List.replicate 4194146 0, List.length_replicate⟩
  obtain ⟨deeds, gate, run, calls, supplied, deed, member, sent⟩ := exists_rejection block
  have modest := modest_of_rejection (Nat.le_of_eq full) calls supplied
  have fits := all _ _ _ _ run standard_longSettings modest deed member _ _ sent
  have standard : ∀ vote ∈ [longVote 1 [1], longVote 2 [2], longVote 3 block], vote.Standard := by
    simp [standard_longVote]
  rw [Wire.fits_iff_of_standard standard] at fits
  simp [longVote, Candidate.hashLength, full, Wire.Message.overhead, Wire.Entry.overhead,
    Frame.limit] at fits

end Gate

end Quorum
