import Mathlib.Data.Finset.Card
import Quorum.Roster

/-! What the choices of keys amount to under a roster: who supports a candidate, who takes part,
when a candidate is carried, and when none can be any more. Two candidates are carried only if a
key that is not faulty supports both.
-/

namespace Quorum

-----------------------------------------------------------------------------------------
-- The threshold
-----------------------------------------------------------------------------------------

/-- All peers but as many as may be faulty are just enough. -/
theorem Supermajority.threshold_eq_sub {peers : Nat} (some_peer : 0 < peers)
    : threshold peers = peers - (peers - 1) / 3 := by
  unfold threshold
  omega

/-- Two supermajorities have more peers in common than may be faulty. -/
theorem Supermajority.faulty_lt_overlap {peers : Nat} (some_peer : 0 < peers)
    : peers + (peers - 1) / 3 < threshold peers + threshold peers := by
  unfold threshold
  omega

theorem Supermajority.threshold_pos (peers : Nat) : 0 < threshold peers :=
  Nat.succ_pos _

/-- The candidate without a block is that of its round. -/
theorem Candidate.isEmpty_iff {candidate : Candidate}
    : candidate.IsEmpty ↔ candidate = .empty candidate.round := by
  cases candidate
  simp [IsEmpty, empty]

theorem Candidate.isEmpty_empty (round : Round) : (Candidate.empty round).IsEmpty :=
  ⟨rfl, rfl⟩

theorem max?_getD_le_iff {counts : List Nat} {limit : Nat}
    : counts.max?.getD 0 ≤ limit ↔ ∀ count ∈ counts, count ≤ limit := by
  constructor
  · intro bounded count member
    exact Nat.le_trans (List.le_max?_getD_of_mem member) bounded
  · intro bounded
    cases largest : counts.max? with
    | none => exact Nat.zero_le _
    | some count => exact bounded count (List.max?_mem largest)

/-- The candidate that the counted vote of each key is for. -/
abbrev Choices := PublicKey → Option Candidate

/-- Every key that has made its choice keeps it. -/
def Choices.Extends (later earlier : Choices) : Prop :=
  ∀ key candidate, earlier key = some candidate → later key = some candidate

namespace Roster

-----------------------------------------------------------------------------------------
-- Rosters of arranged peers
-----------------------------------------------------------------------------------------

theorem addressBytes_ne_of_before {first second : Peer} (before : first.Before second)
    : first.addressBytes ≠ second.addressBytes := by
  intro same
  rw [Peer.Before, same] at before
  exact List.lt_irrefl _ before

theorem eraseDups_of_nodup {peers : List Peer} (nodup : peers.Nodup) : peers.eraseDups = peers := by
  induction peers with
  | nil => rfl
  | cons peer rest ih =>
      obtain ⟨absent, nodup_rest⟩ := List.nodup_cons.mp nodup
      have others : rest.filter (fun other => !other == peer) = rest := by
        refine List.filter_eq_self.mpr fun other member => ?_
        simpa using fun same : other = peer => absent (same ▸ member)
      rw [List.eraseDups_cons, others, ih nodup_rest]

/-- The peers of a roster are arranged already. -/
theorem arrange_peers (roster : Roster) : arrange roster.peers = roster.peers := by
  have nodup : roster.peers.Nodup := roster.distinctKeys.of_map
  have sorted : roster.peers.Pairwise (·.le · = true) := by
    refine roster.ascending.imp fun {first second} before => ?_
    simpa [Peer.le, addressBytes_ne_of_before before, Peer.Before] using before
  rw [arrange, eraseDups_of_nodup nodup, List.mergeSort_of_pairwise sorted]

/-- The roster of some peers is made of all of them, and each is sound. -/
theorem arranged_of_ofPeers {peers : List Peer} {roster : Roster}
    (built : ofPeers peers = .ok roster)
    : roster.peers = arrange peers ∧ peers.findSome? Peer.defect? = none := by
  unfold ofPeers at built
  split at built
  · cases built
  split at built
  · cases built
  next sound =>
  split at built
  · cases built
  split at built
  · cases built
    exact ⟨rfl, sound⟩
  · cases built

/-- The roster of the peers of a roster is that one. -/
theorem eq_of_ofPeers_peers {roster other : Roster}
    (arranged : ofPeers roster.peers = .ok other)
    : other = roster := by
  have peers : other.peers = roster.peers :=
    (arranged_of_ofPeers arranged).1.trans roster.arrange_peers
  cases other
  cases roster
  simpa using peers

theorem repeatedAddress?_of_ascending {peers : List Peer} (ascending : peers.Pairwise Peer.Before)
    : repeatedAddress? peers = none := by
  induction peers with
  | nil => rfl
  | cons first rest ih =>
      cases rest with
      | nil => rfl
      | cons second rest =>
          have before := List.rel_of_pairwise_cons ascending List.mem_cons_self
          rw [repeatedAddress?, if_neg (addressBytes_ne_of_before before)]
          exact ih ascending.tail

/-- A roster can be built again from its peers, unless one of them is malformed. -/
theorem ofPeers_peers (roster : Roster) (sound : roster.peers.findSome? Peer.defect? = none)
    : ofPeers roster.peers = .ok roster := by
  have built : ∃ other, ofPeers roster.peers = .ok other := by
    unfold ofPeers
    rw [dif_neg roster.nonempty, sound]
    simp only
    split
    · next address repeated =>
        rw [arrange_peers, repeatedAddress?_of_ascending roster.ascending] at repeated
        cases repeated
    · rw [dif_pos (by rw [arrange_peers]; exact roster.distinctKeys)]
      exact ⟨_, rfl⟩
  obtain ⟨other, arranged⟩ := built
  rw [arranged, eq_of_ofPeers_peers arranged]

theorem mem_arrange {peers : List Peer} {peer : Peer} : peer ∈ arrange peers ↔ peer ∈ peers := by
  rw [arrange, (List.mergeSort_perm _ _).mem_iff, List.mem_eraseDups]

/-- A roster that was built from peers can be built again from its own. -/
theorem ofPeers_again {peers : List Peer} {roster : Roster} (built : ofPeers peers = .ok roster)
    : ofPeers roster.peers = .ok roster := by
  obtain ⟨arranged, sound⟩ := arranged_of_ofPeers built
  refine roster.ofPeers_peers (List.findSome?_eq_none_iff.mpr fun peer member => ?_)
  exact List.findSome?_eq_none_iff.mp sound peer (mem_arrange.mp (arranged ▸ member))

-----------------------------------------------------------------------------------------
-- The keys of a roster and their choices
-----------------------------------------------------------------------------------------

def keys (roster : Roster) : Finset PublicKey :=
  (roster.peers.map Peer.key).toFinset

@[simp] theorem mem_keys {roster : Roster} {key : PublicKey}
    : key ∈ roster.keys ↔ roster.Has key := by
  simp [keys, Has]

/-- No two peers have one key. -/
theorem card_keys (roster : Roster) : roster.keys.card = roster.size := by
  rw [keys, List.toFinset_card_of_nodup roster.distinctKeys, List.length_map, size]

theorem size_pos (roster : Roster) : 0 < roster.size :=
  List.length_pos_iff.mpr roster.nonempty

/-- The peers' keys whose choice is a candidate. -/
def supporters (roster : Roster) (choices : Choices) (candidate : Candidate)
    : Finset PublicKey :=
  roster.keys.filter fun key => choices key = some candidate

/-- The peers' keys that have made a choice. -/
def participants (roster : Roster) (choices : Choices) : Finset PublicKey :=
  roster.keys.filter fun key => choices key ≠ none

/-- The number of peers that have made no choice yet. -/
def outstanding (roster : Roster) (choices : Choices) : Nat :=
  roster.size - (roster.participants choices).card

/-- The greatest support that any choice has. -/
def leading (roster : Roster) (choices : Choices) : Nat :=
  let support (peer : Peer) :=
    (choices peer.key).elim 0 fun candidate => (roster.supporters choices candidate).card
  (roster.peers.map support).max?.getD 0

@[simp] theorem mem_supporters {roster : Roster} {choices : Choices} {candidate : Candidate}
    {key : PublicKey}
    : key ∈ roster.supporters choices candidate
      ↔ roster.Has key ∧ choices key = some candidate := by
  simp [supporters]

@[simp] theorem mem_participants {roster : Roster} {choices : Choices} {key : PublicKey}
    : key ∈ roster.participants choices ↔ roster.Has key ∧ choices key ≠ none := by
  simp [participants]

theorem supporters_subset_keys (roster : Roster) (choices : Choices) (candidate : Candidate)
    : roster.supporters choices candidate ⊆ roster.keys :=
  Finset.filter_subset _ _

theorem participants_subset_keys (roster : Roster) (choices : Choices)
    : roster.participants choices ⊆ roster.keys :=
  Finset.filter_subset _ _

theorem card_supporters_le (roster : Roster) (choices : Choices) (candidate : Candidate)
    : (roster.supporters choices candidate).card ≤ roster.size :=
  roster.card_keys ▸ Finset.card_le_card (roster.supporters_subset_keys choices candidate)

theorem card_participants_le (roster : Roster) (choices : Choices)
    : (roster.participants choices).card ≤ roster.size :=
  roster.card_keys ▸ Finset.card_le_card (roster.participants_subset_keys choices)

/-- A bound on the support of a candidate need only hold if some key supports it. -/
theorem card_supporters_le_of_choice {roster : Roster} {choices : Choices} {candidate : Candidate}
    {limit : Nat}
    (bounded
      : ∀ key, roster.Has key → choices key = some candidate →
          (roster.supporters choices candidate).card ≤ limit)
    : (roster.supporters choices candidate).card ≤ limit := by
  rcases Finset.eq_empty_or_nonempty (roster.supporters choices candidate) with
    nobody | ⟨key, supports⟩
  · rw [nobody, Finset.card_empty]
    exact Nat.zero_le _
  · obtain ⟨has, choice⟩ := mem_supporters.mp supports
    exact bounded key has choice

/-- A candidate without supporters is no choice, but has less support than any. -/
theorem leading_le_iff {roster : Roster} {choices : Choices} {limit : Nat}
    : roster.leading choices ≤ limit
      ↔ ∀ candidate, (roster.supporters choices candidate).card ≤ limit := by
  rw [leading, max?_getD_le_iff, List.forall_mem_map]
  constructor
  · intro bounded candidate
    refine card_supporters_le_of_choice ?_
    rintro _ ⟨peer, member, rfl⟩ choice
    simpa [choice] using bounded peer member
  · intro bounded peer _
    cases choices peer.key with
    | none => exact Nat.zero_le _
    | some candidate => exact bounded candidate

/-- The greatest support bounds that of all candidates. -/
theorem leading_add_lt_iff (roster : Roster) (choices : Choices) (missing limit : Nat)
    : roster.leading choices + missing < limit
      ↔ ∀ candidate, (roster.supporters choices candidate).card + missing < limit := by
  constructor
  · intro below candidate
    have bounded := leading_le_iff.mp (Nat.le_refl (roster.leading choices)) candidate
    omega
  · intro below
    have room := below (.empty ⟨0, 0⟩)
    have bounded : roster.leading choices ≤ limit - missing - 1 := by
      refine leading_le_iff.mpr fun candidate => ?_
      have := below candidate
      omega
    omega

theorem supporters_subset_participants (roster : Roster) (choices : Choices)
    (candidate : Candidate)
    : roster.supporters choices candidate ⊆ roster.participants choices := by
  intro key supports
  obtain ⟨has, choice⟩ := mem_supporters.mp supports
  exact mem_participants.mpr ⟨has, by simp [choice]⟩

theorem leading_le_card_participants (roster : Roster) (choices : Choices)
    : roster.leading choices ≤ (roster.participants choices).card :=
  leading_le_iff.mpr fun candidate =>
    Finset.card_le_card (roster.supporters_subset_participants choices candidate)

/-- Only the choices of the peers' keys matter for support. -/
theorem supporters_congr {roster : Roster} {left right : Choices}
    (same : ∀ key, roster.Has key → left key = right key) (candidate : Candidate)
    : roster.supporters left candidate = roster.supporters right candidate := by
  ext key
  simp only [mem_supporters]
  exact and_congr_right fun has => by rw [same key has]

theorem participants_congr {roster : Roster} {left right : Choices}
    (same : ∀ key, roster.Has key → left key = right key)
    : roster.participants left = roster.participants right := by
  ext key
  simp only [mem_participants]
  exact and_congr_right fun has => by rw [same key has]

-----------------------------------------------------------------------------------------
-- Candidates that are carried, and deadlocks
-----------------------------------------------------------------------------------------

/-- A supermajority of the peers supports the candidate. -/
def Carries (roster : Roster) (choices : Choices) (candidate : Candidate) : Prop :=
  roster.threshold ≤ (roster.supporters choices candidate).card

/-- Enough peers have made their choice, and no candidate is carried even if all that are
outstanding join its supporters.
-/
def Deadlocked (roster : Roster) (choices : Choices) : Prop :=
  roster.threshold ≤ (roster.participants choices).card
  ∧ ∀ candidate,
      (roster.supporters choices candidate).card + roster.outstanding choices
        < roster.threshold

/-- No candidate is in reach exactly in a deadlock. -/
theorem outOfReach_iff {roster : Roster} {choices : Choices}
    : Supermajority.OutOfReach (roster.leading choices) (roster.participants choices).card
          roster.size
      ↔ roster.Deadlocked choices := by
  have some_peer := roster.size_pos
  have most := roster.card_participants_le choices
  have short := roster.leading_add_lt_iff choices (roster.outstanding choices) roster.threshold
  constructor
  · rintro ⟨-, -, enough, below⟩
    exact ⟨enough, short.mp below⟩
  · rintro ⟨enough, below⟩
    exact ⟨some_peer, most, enough, short.mpr below⟩

/-- The keys of peers that support a candidate in one view, but had chosen another one in the
other view.
-/
def turncoats (roster : Roster) (before after : Choices) (candidate : Candidate)
    : Finset PublicKey :=
  (roster.supporters after candidate ∩ roster.participants before)
    \ roster.supporters before candidate

theorem mem_turncoats {roster : Roster} {before after : Choices} {candidate : Candidate}
    {key : PublicKey}
    : key ∈ roster.turncoats before after candidate
      ↔ roster.Has key ∧ after key = some candidate
        ∧ ∃ other, before key = some other ∧ other ≠ candidate := by
  simp only [turncoats, Finset.mem_sdiff, Finset.mem_inter, mem_supporters, mem_participants]
  constructor
  · rintro ⟨⟨⟨has, choice⟩, -, chosen⟩, differ⟩
    obtain ⟨other, earlier⟩ := Option.ne_none_iff_exists'.mp chosen
    refine ⟨has, choice, other, earlier, fun same => differ ⟨has, same ▸ earlier⟩⟩
  · rintro ⟨has, choice, other, earlier, differ⟩
    refine ⟨⟨⟨has, choice⟩, has, by simp [earlier]⟩, fun same => differ ?_⟩
    exact Option.some.inj (earlier.symm.trans same.2)

/-- Two sets of peers' keys that are supermajorities share more keys than may be faulty; by counting
their union within the roster.
-/
theorem faulty_lt_card_inter {roster : Roster} {left right : Finset PublicKey}
    (left_peers : left ⊆ roster.keys) (right_peers : right ⊆ roster.keys)
    (left_many : roster.threshold ≤ left.card) (right_many : roster.threshold ≤ right.card)
    : (roster.size - 1) / 3 < (left ∩ right).card := by
  have union : (left ∪ right).card ≤ roster.size :=
    roster.card_keys ▸ Finset.card_le_card (Finset.union_subset left_peers right_peers)
  have parts := Finset.card_union_add_card_inter left right
  have overlap := Supermajority.faulty_lt_overlap roster.size_pos
  unfold threshold at left_many right_many
  omega

/-- Two sets of peers' keys that are supermajorities share a key that is not faulty. -/
theorem exists_common_key {roster : Roster} {left right faulty : Finset PublicKey}
    (left_peers : left ⊆ roster.keys) (right_peers : right ⊆ roster.keys)
    (left_many : roster.threshold ≤ left.card) (right_many : roster.threshold ≤ right.card)
    (few : faulty.card ≤ (roster.size - 1) / 3)
    : ∃ key ∈ left, key ∈ right ∧ key ∉ faulty := by
  have more : faulty.card < (left ∩ right).card :=
    Nat.lt_of_le_of_lt few (faulty_lt_card_inter left_peers right_peers left_many right_many)
  obtain ⟨key, common, honest⟩ := Finset.exists_mem_notMem_of_card_lt_card more
  obtain ⟨in_left, in_right⟩ := Finset.mem_inter.mp common
  exact ⟨key, in_left, in_right, honest⟩

/-- At most one candidate is carried, since a common supporter has one choice. -/
theorem Carries.unique {roster : Roster} {choices : Choices} {first second : Candidate}
    (carries : roster.Carries choices first) (carries' : roster.Carries choices second)
    : first = second := by
  obtain ⟨key, supports, supports', -⟩ :=
    exists_common_key (roster.supporters_subset_keys choices first)
      (roster.supporters_subset_keys choices second) carries carries'
      (Finset.card_empty.trans_le (Nat.zero_le _))
  have choice := (mem_supporters.mp supports).2
  have choice' := (mem_supporters.mp supports').2
  exact Option.some.inj (choice.symm.trans choice')

theorem Carries.exists_supporter {roster : Roster} {choices : Choices} {candidate : Candidate}
    (carries : roster.Carries choices candidate)
    : ∃ key, roster.Has key ∧ choices key = some candidate := by
  have some_vote : 0 < (roster.supporters choices candidate).card :=
    Nat.lt_of_lt_of_le (Supermajority.threshold_pos _) carries
  obtain ⟨key, supports⟩ := Finset.card_pos.mp some_vote
  exact ⟨key, mem_supporters.mp supports⟩

theorem Deadlocked.exists_participant {roster : Roster} {choices : Choices}
    (deadlock : roster.Deadlocked choices)
    : ∃ key candidate, roster.Has key ∧ choices key = some candidate := by
  have some_vote : 0 < (roster.participants choices).card :=
    Nat.lt_of_lt_of_le (Supermajority.threshold_pos _) deadlock.1
  obtain ⟨key, takes_part⟩ := Finset.card_pos.mp some_vote
  obtain ⟨has, chosen⟩ := mem_participants.mp takes_part
  obtain ⟨candidate, choice⟩ := Option.ne_none_iff_exists'.mp chosen
  exact ⟨key, candidate, has, choice⟩

/-- The supporters in one view are supporters in the other, or made no choice there, or are
turncoats.
-/
theorem card_supporters_le_add (roster : Roster) (before after : Choices)
    (candidate : Candidate)
    : (roster.supporters after candidate).card
      ≤ (roster.supporters before candidate).card + roster.outstanding before
        + (roster.turncoats before after candidate).card := by
  have cover
      : roster.supporters after candidate
        ⊆ roster.supporters before candidate ∪ (roster.keys \ roster.participants before)
          ∪ roster.turncoats before after candidate := by
    intro key supports
    have member := roster.supporters_subset_keys after candidate supports
    simp only [turncoats, Finset.mem_union, Finset.mem_sdiff, Finset.mem_inter]
    tauto
  have absent : (roster.keys \ roster.participants before).card = roster.outstanding before := by
    rw [Finset.card_sdiff_of_subset (roster.participants_subset_keys before), card_keys,
      outstanding]
  calc
    (roster.supporters after candidate).card
      ≤ (roster.supporters before candidate ∪ (roster.keys \ roster.participants before)
          ∪ roster.turncoats before after candidate).card := Finset.card_le_card cover
    _ ≤ (roster.supporters before candidate ∪ (roster.keys \ roster.participants before)).card
          + (roster.turncoats before after candidate).card := Finset.card_union_le _ _
    _ ≤ _ := by
      rw [← absent]
      exact Nat.add_le_add_right (Finset.card_union_le _ _) _

/-- A candidate that is carried elsewhere in spite of a deadlock owes it to turncoats. -/
theorem Deadlocked.turncoats_nonempty {roster : Roster} {before after : Choices}
    {candidate : Candidate} (deadlock : roster.Deadlocked before)
    (carries : roster.Carries after candidate)
    : (roster.turncoats before after candidate).Nonempty := by
  have bound := roster.card_supporters_le_add before after candidate
  have short := deadlock.2 candidate
  unfold Carries at carries
  exact Finset.card_pos.mp (by omega)

/-- No peer's key that has made its choice changes it. -/
def Keeps (roster : Roster) (earlier later : Choices) : Prop :=
  ∀ key candidate, roster.Has key → earlier key = some candidate → later key = some candidate

/-- Nothing is carried after a deadlock, whatever the outstanding peers choose; there are no
turncoats.
-/
theorem Deadlocked.not_carries_later {roster : Roster} {earlier later : Choices}
    {candidate : Candidate} (deadlock : roster.Deadlocked earlier)
    (kept : roster.Keeps earlier later)
    : ¬ roster.Carries later candidate := by
  intro carries
  obtain ⟨key, turned⟩ := deadlock.turncoats_nonempty carries
  obtain ⟨has, choice, other, chosen, differ⟩ := mem_turncoats.mp turned
  exact differ (Option.some.inj ((kept key other has chosen).symm.trans choice))

/-- Nothing is carried in a deadlock. -/
theorem Deadlocked.not_carries {roster : Roster} {choices : Choices} {candidate : Candidate}
    (deadlock : roster.Deadlocked choices)
    : ¬ roster.Carries choices candidate :=
  deadlock.not_carries_later fun _ _ _ choice => choice

-----------------------------------------------------------------------------------------
-- Later choices
-----------------------------------------------------------------------------------------

theorem supporters_mono {roster : Roster} {later earlier : Choices}
    (extends_choices : later.Extends earlier) (candidate : Candidate)
    : roster.supporters earlier candidate ⊆ roster.supporters later candidate := by
  intro key supports
  obtain ⟨has, choice⟩ := mem_supporters.mp supports
  exact mem_supporters.mpr ⟨has, extends_choices key candidate choice⟩

theorem participants_mono {roster : Roster} {later earlier : Choices}
    (extends_choices : later.Extends earlier)
    : roster.participants earlier ⊆ roster.participants later := by
  intro key takes_part
  obtain ⟨has, chosen⟩ := mem_participants.mp takes_part
  obtain ⟨candidate, choice⟩ := Option.ne_none_iff_exists'.mp chosen
  exact mem_participants.mpr ⟨has, by simp [extends_choices key candidate choice]⟩

/-- Each new supporter was outstanding before, so that the best possible count never grows. -/
theorem card_supporters_add_outstanding_le {roster : Roster} {later earlier : Choices}
    (extends_choices : later.Extends earlier) (candidate : Candidate)
    : (roster.supporters later candidate).card + roster.outstanding later
      ≤ (roster.supporters earlier candidate).card + roster.outstanding earlier := by
  have grown : roster.participants earlier ⊆ roster.participants later :=
    participants_mono extends_choices
  have cover
      : roster.supporters later candidate
        ⊆ roster.supporters earlier candidate
          ∪ (roster.participants later \ roster.participants earlier) := by
    intro key supports
    obtain ⟨has, choice⟩ := mem_supporters.mp supports
    cases before : earlier key with
    | none =>
        exact Finset.mem_union_right _ (Finset.mem_sdiff.mpr
          ⟨mem_participants.mpr ⟨has, by simp [choice]⟩, by simp [before]⟩)
    | some other =>
        have same : some other = some candidate :=
          (extends_choices key other before).symm.trans choice
        exact Finset.mem_union_left _ (mem_supporters.mpr ⟨has, before.trans same⟩)
  have count := (Finset.card_le_card cover).trans (Finset.card_union_le _ _)
  rw [Finset.card_sdiff_of_subset grown] at count
  have fewer := Finset.card_le_card grown
  have most := roster.card_participants_le later
  unfold outstanding
  omega

theorem Carries.mono {roster : Roster} {later earlier : Choices} {candidate : Candidate}
    (extends_choices : later.Extends earlier) (carries : roster.Carries earlier candidate)
    : roster.Carries later candidate :=
  Nat.le_trans carries (Finset.card_le_card (supporters_mono extends_choices candidate))

theorem Deadlocked.mono {roster : Roster} {later earlier : Choices}
    (extends_choices : later.Extends earlier) (deadlock : roster.Deadlocked earlier)
    : roster.Deadlocked later := by
  refine ⟨?_, fun candidate => ?_⟩
  · exact Nat.le_trans deadlock.1 (Finset.card_le_card (participants_mono extends_choices))
  · exact Nat.lt_of_le_of_lt (card_supporters_add_outstanding_le extends_choices candidate)
      (deadlock.2 candidate)

-----------------------------------------------------------------------------------------
-- The decision that choices amount to
-----------------------------------------------------------------------------------------

/-- What the choices of the keys in a round decide under a roster, and for which candidate. -/
inductive Decides (roster : Roster) (choices : Choices) (round : Round)
    : OutcomeKind → Option Candidate → Prop
  | commit {candidate : Candidate} (block : ¬ candidate.IsEmpty)
    (carries : roster.Carries choices candidate)
    : roster.Decides choices round .commit (some candidate)
  | nothing (carries : roster.Carries choices (.empty round))
    : roster.Decides choices round .nothing none
  | reject (deadlock : roster.Deadlocked choices) : roster.Decides choices round .reject none

/-- Nothing is decided where no peer has made a choice. -/
theorem Decides.exists_choice {roster : Roster} {choices : Choices} {round : Round}
    {kind : OutcomeKind} {winner : Option Candidate}
    (decides : roster.Decides choices round kind winner)
    : ∃ key candidate, roster.Has key ∧ choices key = some candidate := by
  cases decides with
  | commit _ carries =>
      obtain ⟨key, has, choice⟩ := carries.exists_supporter
      exact ⟨key, _, has, choice⟩
  | nothing carries =>
      obtain ⟨key, has, choice⟩ := carries.exists_supporter
      exact ⟨key, _, has, choice⟩
  | reject deadlock => exact deadlock.exists_participant

/-- Choices decide at most one thing; by uniqueness of the carried candidate, which excludes a
deadlock.
-/
theorem Decides.unique {roster : Roster} {choices : Choices} {round : Round}
    {kind other : OutcomeKind} {winner alternative : Option Candidate}
    (decides : roster.Decides choices round kind winner)
    (decides' : roster.Decides choices round other alternative)
    : kind = other ∧ winner = alternative := by
  cases decides with
  | commit block carries =>
      cases decides' with
      | commit block' carries' => exact ⟨rfl, congrArg some (carries.unique carries')⟩
      | nothing carries' =>
          obtain rfl := carries.unique carries'
          exact absurd (Candidate.isEmpty_empty round) block
      | reject deadlock => exact absurd carries deadlock.not_carries
  | nothing carries =>
      cases decides' with
      | commit block' carries' =>
          obtain rfl := carries'.unique carries
          exact absurd (Candidate.isEmpty_empty round) block'
      | nothing carries' => exact ⟨rfl, rfl⟩
      | reject deadlock => exact absurd carries deadlock.not_carries
  | reject deadlock =>
      cases decides' with
      | commit block' carries' => exact absurd carries' deadlock.not_carries
      | nothing carries' => exact absurd carries' deadlock.not_carries
      | reject deadlock' => exact ⟨rfl, rfl⟩

theorem Decides.mono {roster : Roster} {later earlier : Choices} {round : Round}
    {kind : OutcomeKind} {winner : Option Candidate} (extends_choices : later.Extends earlier)
    (decides : roster.Decides earlier round kind winner)
    : roster.Decides later round kind winner := by
  cases decides with
  | commit block carries => exact .commit block (carries.mono extends_choices)
  | nothing carries => exact .nothing (carries.mono extends_choices)
  | reject deadlock => exact .reject (deadlock.mono extends_choices)

section

variable {roster : Roster} {left right : Choices}

/-- Only the choices of the peers' keys matter for what is carried. -/
theorem Carries.congr {candidate : Candidate} (same : ∀ key, roster.Has key → left key = right key)
    (carries : roster.Carries left candidate)
    : roster.Carries right candidate := by
  rwa [Carries, ← supporters_congr same]

theorem Deadlocked.congr (same : ∀ key, roster.Has key → left key = right key)
    (deadlock : roster.Deadlocked left)
    : roster.Deadlocked right := by
  refine ⟨?_, fun candidate => ?_⟩
  · rw [← participants_congr same]
    exact deadlock.1
  · rw [← supporters_congr same, outstanding, ← participants_congr same]
    exact deadlock.2 candidate

theorem Decides.congr {round : Round} {kind : OutcomeKind} {winner : Option Candidate}
    (same : ∀ key, roster.Has key → left key = right key)
    (decides : roster.Decides left round kind winner)
    : roster.Decides right round kind winner := by
  cases decides with
  | commit block carries => exact .commit block (carries.congr same)
  | nothing carries => exact .nothing (carries.congr same)
  | reject deadlock => exact .reject (deadlock.congr same)

end

end Roster

-----------------------------------------------------------------------------------------
-- A small roster
-----------------------------------------------------------------------------------------

def PublicKey.numbered (number : UInt8) : PublicKey :=
  ⟨.ed25519Sha256, [number]⟩

/-- The candidate with a numbered block in a round of height 5. -/
def Candidate.numbered (number : UInt8) : Candidate :=
  ⟨⟨5, 0⟩, [number], [number]⟩

def Vote.numbered (number : UInt8) (candidate : Candidate) : Vote :=
  ⟨candidate, ⟨[]⟩, .numbered number⟩

/-- Four peers, of which one may be faulty. -/
def Roster.four : Roster where
  peers := [⟨"a", .numbered 1⟩, ⟨"b", .numbered 2⟩, ⟨"c", .numbered 3⟩, ⟨"d", .numbered 4⟩]
  nonempty := by decide
  ascending := by decide +kernel
  distinctKeys := by decide

theorem Roster.ofPeers_four : ofPeers four.peers = .ok four :=
  four.ofPeers_peers (by decide +kernel)

end Quorum
