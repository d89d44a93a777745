import Mathlib.Data.List.Destutter
import Mathlib.Data.List.Sort
import Mathlib.Data.List.TakeWhile
import Quorum.Proofs.Roster.Support

/-! Rosters from lists of peers. Whether some peers make up a roster, and which one, depends on the
set of them alone. Neighbours in sorted order are enough to tell.
-/

namespace Quorum

-----------------------------------------------------------------------------------------
-- Neighbours in sorted order
-----------------------------------------------------------------------------------------

section

variable {α : Type} {le : α → α → Bool}
  (antisymm : ∀ {first second : α}, le first second = true → le second first = true →
    first = second)

include antisymm

/-- Sorted elements are all distinct as soon as neighbours are. -/
theorem isChain_ne_iff_nodup {row : List α} (sorted : row.Pairwise (le · · = true))
    : row.IsChain (· ≠ ·) ↔ row.Nodup := by
  refine ⟨fun chain => ?_, List.Pairwise.isChain⟩
  induction row with
  | nil => exact .nil
  | cons first rest ih =>
      cases rest with
      | nil => exact List.nodup_singleton first
      | cons second rest =>
          obtain ⟨differ, chain⟩ := List.isChain_cons_cons.mp chain
          refine List.nodup_cons.mpr ⟨fun again => differ ?_, ih sorted.tail chain⟩
          rcases List.mem_cons.mp again with same | later
          · exact same
          · refine antisymm (List.rel_of_pairwise_cons sorted List.mem_cons_self) ?_
            exact List.rel_of_pairwise_cons sorted.tail later

/-- Lists in the same order and without repetitions are equal if they have the same elements. -/
theorem eq_of_sorted_of_nodup {first second : List α} (sorted : first.Pairwise (le · · = true))
    (sorted' : second.Pairwise (le · · = true)) (nodup : first.Nodup) (nodup' : second.Nodup)
    (same : ∀ element, element ∈ first ↔ element ∈ second)
    : first = second :=
  List.Perm.eq_of_pairwise (fun _ _ _ _ => antisymm) sorted sorted'
    ((List.perm_ext_iff_of_nodup nodup nodup').mpr same)

end

section

variable {α : Type} [DecidableEq α]

theorem nodup_eraseDups (row : List α) : row.eraseDups.Nodup := by
  cases row with
  | nil => exact .nil
  | cons first rest =>
      rw [List.eraseDups_cons]
      exact List.nodup_cons.mpr ⟨by simp, nodup_eraseDups (rest.filter fun other => !other == first)⟩
termination_by row.length
decreasing_by exact Nat.lt_succ_of_le (List.length_filter_le _ _)

/-- All elements are still there when equal neighbours have collapsed. -/
theorem mem_destutter_ne {row : List α} {element : α}
    : element ∈ row.destutter (· ≠ ·) ↔ element ∈ row := by
  refine ⟨fun member => (List.destutter_sublist _ row).subset member, fun member => ?_⟩
  cases row with
  | nil => exact member
  | cons first rest =>
      rw [List.destutter_cons']
      induction rest generalizing first with
      | nil => exact member
      | cons second rest ih =>
          rw [List.destutter'_cons]
          split
          · rcases List.mem_cons.mp member with rfl | later
            · exact List.mem_cons_self
            · exact List.mem_cons_of_mem first (ih second later)
          · next same =>
              obtain rfl := not_not.mp same
              rcases List.mem_cons.mp member with rfl | later
              · exact List.mem_destutter' _ _ _
              · exact ih first later

end

-----------------------------------------------------------------------------------------
-- The order of peers
-----------------------------------------------------------------------------------------

theorem Bytes.ofText_inj {left right : String} : ofText left = ofText right ↔ left = right := by
  refine ⟨fun same => ?_, congrArg ofText⟩
  exact String.toByteArray_inj.mp (ByteArray.ext (Array.toList_inj.mp same))

theorem Peer.addressBytes_inj {left right : Peer}
    : left.addressBytes = right.addressBytes ↔ left.address = right.address :=
  Bytes.ofText_inj

theorem PublicKey.le_antisymm {left right : PublicKey} (before : left.le right = true)
    (after : right.le left = true)
    : left = right := by
  obtain ⟨algorithm, bytes⟩ := left
  obtain ⟨algorithm', bytes'⟩ := right
  unfold le at before after
  by_cases same : algorithm = algorithm'
  · subst same
    simp only [if_true, decide_eq_true_eq] at before after
    rw [List.le_antisymm before after]
  · simp only [same, Ne.symm same, if_false, decide_eq_true_eq] at before after
    exact absurd after (UInt8.lt_asymm before)

/-- Keys by the tags of their schemes, then by their bytes. -/
def PublicKey.Precedes (left right : PublicKey) : Prop :=
  left.algorithm.tag < right.algorithm.tag
  ∨ left.algorithm.tag = right.algorithm.tag ∧ left.bytes < right.bytes

/-- Peers by the bytes of their addresses, then by their keys. -/
def Peer.Precedes (left right : Peer) : Prop :=
  left.addressBytes < right.addressBytes
  ∨ left.addressBytes = right.addressBytes ∧ left.key.Precedes right.key

theorem Peer.le_antisymm {left right : Peer} (before : left.le right = true)
    (after : right.le left = true)
    : left = right := by
  unfold le at before after
  by_cases same : left.addressBytes = right.addressBytes
  · rw [if_pos same] at before
    rw [if_pos same.symm] at after
    exact Peer.mk.injEq .. ▸ ⟨addressBytes_inj.mp same, PublicKey.le_antisymm before after⟩
  · simp only [same, Ne.symm same, if_false, decide_eq_true_eq] at before after
    exact absurd (List.lt_trans before after) (List.lt_irrefl _)

-----------------------------------------------------------------------------------------
-- Sound peers
-----------------------------------------------------------------------------------------

theorem Text.trimBlank_eq_nil {text : List Char}
    : trimBlank text = [] ↔ ∀ character ∈ text, Blank character := by
  let blank (character : Char) := decide (Blank character)
  change ((text.dropWhile blank).reverse.dropWhile blank).reverse = [] ↔ _
  rw [List.reverse_eq_nil_iff, List.dropWhile_eq_nil_iff]
  simp only [List.mem_reverse]
  refine ⟨fun rest character member => ?_, fun all character member => ?_⟩
  · rw [← List.takeWhile_append_dropWhile (p := blank) (l := text)] at member
    rcases List.mem_append.mp member with front | behind
    · have kept : blank character = true := List.mem_takeWhile_imp front
      exact of_decide_eq_true kept
    · exact of_decide_eq_true (rest character behind)
  · exact decide_eq_true (all character ((List.dropWhile_sublist _).subset member))

/-- The peer has an address that is not blank, and a key that is not empty. -/
structure Peer.Sound (peer : Peer) : Prop where
  address : ∃ character ∈ peer.address.toList, ¬ Text.Blank character
  key : peer.key.bytes ≠ []

theorem Peer.defect?_eq_none {peer : Peer} : peer.defect? = none ↔ peer.Sound := by
  have blank
      : (Text.trimBlank peer.address.toList).isEmpty = true
        ↔ ¬ ∃ character ∈ peer.address.toList, ¬ Text.Blank character := by
    rw [List.isEmpty_iff, Text.trimBlank_eq_nil]
    simp
  unfold defect?
  split
  · next empty => exact ⟨nofun, fun sound => absurd sound.address (blank.mp empty)⟩
  next named =>
  split
  · next empty => exact ⟨nofun, fun sound => absurd (List.isEmpty_iff.mp empty) sound.key⟩
  · next keyed =>
      have written : peer.key.bytes ≠ [] := by simpa using keyed
      exact ⟨fun _ => ⟨not_not.mp (mt blank.mpr named), written⟩, fun _ => rfl⟩

namespace Roster

-----------------------------------------------------------------------------------------
-- Arranged peers
-----------------------------------------------------------------------------------------

section

variable {peers : List Peer}

theorem nodup_arrange (peers : List Peer) : (arrange peers).Nodup :=
  (List.mergeSort_perm _ _).nodup_iff.mpr (nodup_eraseDups peers)

/-- Peers are arranged alike whatever their order and their repetitions. -/
theorem arrange_congr {others : List Peer} (same : ∀ peer, peer ∈ others ↔ peer ∈ peers)
    : arrange others = arrange peers := by
  refine eq_of_sorted_of_nodup Peer.le_antisymm (arrange_sorted _) (arrange_sorted _)
    (nodup_arrange _) (nodup_arrange _) fun peer => ?_
  rw [mem_arrange, mem_arrange, same]

/-- To arrange peers they may be sorted first, so that repetitions are neighbours. -/
theorem arrange_eq_destutter (peers : List Peer)
    : arrange peers = (peers.mergeSort Peer.le).destutter (· ≠ ·) := by
  have sorted := List.pairwise_mergeSort Peer.le_trans Peer.le_total peers
  have collapsed := sorted.sublist (List.destutter_sublist (· ≠ ·) _)
  have chain := List.isChain_destutter (· ≠ ·) (peers.mergeSort Peer.le)
  refine eq_of_sorted_of_nodup Peer.le_antisymm (arrange_sorted _) collapsed
    (nodup_arrange _) ((isChain_ne_iff_nodup Peer.le_antisymm collapsed).mp chain) fun peer => ?_
  rw [mem_arrange, mem_destutter_ne, (List.mergeSort_perm _ _).mem_iff]

/-- No two of the peers have the same value of a field. -/
def Distinct {β : Type} (field : Peer → β) (peers : List Peer) : Prop :=
  ∀ first ∈ peers, ∀ second ∈ peers, field first = field second → first = second

theorem nodup_map_arrange_iff {β : Type} (field : Peer → β)
    : ((arrange peers).map field).Nodup ↔ Distinct field peers := by
  rw [List.nodup_map_iff_inj_on (nodup_arrange peers)]
  simp only [mem_arrange]
  rfl

/-- Among arranged peers, neighbours tell whether an address occurs twice. -/
theorem repeatedAddress?_arrange_eq_none
    : repeatedAddress? (arrange peers) = none ↔ Distinct Peer.address peers := by
  rw [← nodup_map_arrange_iff]
  constructor
  · intro none
    refine List.pairwise_map.mpr ((pairwise_before (arrange_sorted peers) none).imp ?_)
    exact fun before same => addressBytes_ne_of_before before (congrArg Bytes.ofText same)
  · intro distinct
    have apart := List.pairwise_map.mp distinct
    refine repeatedAddress?_of_ascending (((arrange_sorted peers).and apart).imp ?_)
    intro first second ⟨sorted, differ⟩
    simpa [Peer.le, Peer.addressBytes_inj, differ, Peer.Before] using sorted

/-- The keys of some peers are all distinct as soon as neighbours are, once they are sorted. -/
theorem isChain_mergeSort_keys (keys : List PublicKey)
    : (keys.mergeSort PublicKey.le).IsChain (· ≠ ·) ↔ keys.Nodup := by
  have sorted := List.pairwise_mergeSort PublicKey.le_trans PublicKey.le_total keys
  rw [isChain_ne_iff_nodup PublicKey.le_antisymm sorted, (List.mergeSort_perm _ _).nodup_iff]

end

-----------------------------------------------------------------------------------------
-- Peers that make up a roster
-----------------------------------------------------------------------------------------

/-- The peers can make up a roster. -/
structure Proper (peers : List Peer) : Prop where
  inhabited : peers ≠ []
  sound : ∀ peer ∈ peers, peer.Sound
  addresses : Distinct Peer.address peers
  keys : Distinct Peer.key peers

theorem Proper.congr {peers others : List Peer} (proper : Proper peers)
    (same : ∀ peer, peer ∈ others ↔ peer ∈ peers)
    : Proper others where
  inhabited := by
    obtain ⟨peer, member⟩ := List.exists_mem_of_ne_nil peers proper.inhabited
    exact List.ne_nil_of_mem ((same peer).mpr member)
  sound peer member := proper.sound peer ((same peer).mp member)
  addresses first member second member' :=
    proper.addresses first ((same first).mp member) second ((same second).mp member')
  keys first member second member' :=
    proper.keys first ((same first).mp member) second ((same second).mp member')

/-- The ways in which a roster can be built, or not. -/
inductive Building (peers : List Peer) : Except Fault Roster → Prop
  | absent (nobody : peers = []) : Building peers (.error .emptyPeerList)
  | malformed (inhabited : peers ≠ []) (improper : ¬ Proper peers) (defect : PeerDefect)
    : Building peers (.error (.malformedPeer defect))
  | built {roster : Roster} (proper : Proper peers) (arranged : roster.peers = arrange peers)
    : Building peers (.ok roster)

theorem building (peers : List Peer) : Building peers (ofPeers peers) := by
  unfold ofPeers
  split
  · next nobody => exact .absent nobody
  next inhabited =>
  split
  · next defect found =>
      refine .malformed inhabited (fun proper => ?_) defect
      obtain ⟨peer, member, wrong⟩ := List.exists_of_findSome?_eq_some found
      rw [Peer.defect?_eq_none.mpr (proper.sound peer member)] at wrong
      cases wrong
  next sound =>
  split
  · next address repeated =>
      refine .malformed inhabited (fun proper => ?_) _
      rw [repeatedAddress?_arrange_eq_none.mpr proper.addresses] at repeated
      cases repeated
  next distinct =>
  split
  · next keys =>
      refine .built ⟨inhabited, fun peer member => ?_, ?_, ?_⟩ rfl
      · exact Peer.defect?_eq_none.mp (List.findSome?_eq_none_iff.mp sound peer member)
      · exact repeatedAddress?_arrange_eq_none.mp distinct
      · exact (nodup_map_arrange_iff Peer.key).mp keys
  · next repeated =>
      exact .malformed inhabited
        (fun proper => repeated ((nodup_map_arrange_iff Peer.key).mpr proper.keys)) _

/-- The same roster, or a failure for the same reason, whichever peer is named for it. -/
inductive Agrees : Except Fault Roster → Except Fault Roster → Prop
  | built (roster : Roster) : Agrees (.ok roster) (.ok roster)
  | absent : Agrees (.error .emptyPeerList) (.error .emptyPeerList)
  | malformed (defect other : PeerDefect)
    : Agrees (.error (.malformedPeer defect)) (.error (.malformedPeer other))

section

variable {peers : List Peer}

theorem exists_ofPeers_of_proper (proper : Proper peers)
    : ∃ roster, ofPeers peers = .ok roster ∧ roster.peers = arrange peers := by
  have ends := building peers
  generalize ofPeers peers = result at ends
  cases ends with
  | absent nobody => exact absurd nobody proper.inhabited
  | malformed _ improper _ => exact absurd proper improper
  | built _ arranged => exact ⟨_, rfl, arranged⟩

theorem exists_ofPeers_of_improper (inhabited : peers ≠ []) (improper : ¬ Proper peers)
    : ∃ defect, ofPeers peers = .error (.malformedPeer defect) := by
  have ends := building peers
  generalize ofPeers peers = result at ends
  cases ends with
  | absent nobody => exact absurd nobody inhabited
  | malformed _ _ defect => exact ⟨defect, rfl⟩
  | built proper _ => exact absurd proper improper

theorem exists_ofPeers_iff : (∃ roster, ofPeers peers = .ok roster) ↔ Proper peers := by
  constructor
  · rintro ⟨roster, built⟩
    have ends := building peers
    rw [built] at ends
    cases ends with
    | built proper _ => exact proper
  · intro proper
    obtain ⟨roster, built, -⟩ := exists_ofPeers_of_proper proper
    exact ⟨roster, built⟩

theorem ext_peers {first second : Roster} (same : first.peers = second.peers) : first = second := by
  cases first
  cases second
  simpa using same

theorem agrees_of_same {others : List Peer} (same : ∀ peer, peer ∈ others ↔ peer ∈ peers)
    : Agrees (ofPeers others) (ofPeers peers) := by
  have back (peer : Peer) : peer ∈ peers ↔ peer ∈ others := (same peer).symm
  by_cases nobody : peers = []
  · subst nobody
    obtain rfl : others = [] := List.eq_nil_iff_forall_not_mem.mpr fun peer member =>
      List.not_mem_nil ((same peer).mp member)
    exact .absent
  by_cases proper : Proper peers
  · obtain ⟨roster, built, arranged⟩ := exists_ofPeers_of_proper proper
    obtain ⟨roster', built', arranged'⟩ := exists_ofPeers_of_proper (proper.congr same)
    obtain rfl : roster' = roster :=
      ext_peers (arranged'.trans ((arrange_congr same).trans arranged.symm))
    rw [built, built']
    exact .built roster'
  · obtain ⟨peer, member⟩ := List.exists_mem_of_ne_nil peers nobody
    have inhabited : others ≠ [] := List.ne_nil_of_mem ((same peer).mpr member)
    obtain ⟨defect, built⟩ := exists_ofPeers_of_improper nobody proper
    obtain ⟨defect', built'⟩ :=
      exists_ofPeers_of_improper inhabited fun other => proper (other.congr back)
    rw [built, built']
    exact .malformed defect' defect

end

-----------------------------------------------------------------------------------------
-- Rosters by neighbours
-----------------------------------------------------------------------------------------

/-- The peers of a roster, by comparing neighbours only: peers are sorted and equal neighbours
collapse, then neighbours must differ in their addresses, and once the keys are sorted, in their keys.
-/
def ofNeighbours (peers : List Peer) : Except Fault (List Peer) :=
  if peers = [] then .error .emptyPeerList
  else
    match peers.findSome? Peer.defect? with
    | some defect => .error (.malformedPeer defect)
    | none =>
        let row := (peers.mergeSort Peer.le).destutter (· ≠ ·)
        match repeatedAddress? row with
        | some address => .error (.malformedPeer (.repeatedAddress address))
        | none =>
            if ((row.map Peer.key).mergeSort PublicKey.le).IsChain (· ≠ ·) then .ok row
            else .error (.malformedPeer .repeatedKey)

theorem map_ofPeers (peers : List Peer) : (ofPeers peers).map Roster.peers = ofNeighbours peers := by
  unfold ofPeers ofNeighbours
  simp only [← arrange_eq_destutter, isChain_mergeSort_keys]
  split
  · rfl
  cases peers.findSome? Peer.defect? with
  | some defect => rfl
  | none =>
      simp only
      split
      · next repeated =>
          rw [repeated]
          rfl
      next distinct =>
      simp only [distinct]
      by_cases keys : ((arrange peers).map Peer.key).Nodup
      · simp only [dif_pos keys, if_pos keys]
        rfl
      · simp only [dif_neg keys, if_neg keys]
        rfl

/-- Peers make up a roster exactly if there are some, each with an address that is not blank and a key
that is not empty, and no two that differ share an address or a key. The roster then has just these
peers, ascending by the bytes of their addresses, then by their keys. Lists of the same peers, in any
order and with any repetitions, make up the same roster, or none for the same reason. All this is
told by comparing neighbours in sorted order.
-/
theorem ofPeers_by_members (peers : List Peer)
    : ((∃ roster, ofPeers peers = .ok roster) ↔ Proper peers)
      ∧ (∀ roster, ofPeers peers = .ok roster →
          (∀ peer, peer ∈ roster.peers ↔ peer ∈ peers)
          ∧ roster.peers.Pairwise Peer.Precedes
          ∧ roster.threshold = Supermajority.threshold peers.toFinset.card)
      ∧ (∀ others, (∀ peer, peer ∈ others ↔ peer ∈ peers) →
          Agrees (ofPeers others) (ofPeers peers))
      ∧ (ofPeers peers).map Roster.peers = ofNeighbours peers := by
  refine ⟨exists_ofPeers_iff, fun roster built => ?_, fun _ => agrees_of_same, map_ofPeers peers⟩
  have arranged := (arranged_of_ofPeers built).1
  have members (peer : Peer) : peer ∈ roster.peers ↔ peer ∈ peers := by
    rw [arranged, mem_arrange]
  refine ⟨members, roster.ascending.imp .inl, ?_⟩
  have set : peers.toFinset = roster.peers.toFinset := by
    ext peer
    simp [members]
  rw [threshold, size, set, List.toFinset_card_of_nodup (arranged ▸ nodup_arrange peers)]

end Roster

end Quorum
