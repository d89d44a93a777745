import Quorum.Vote
import Quorum.Supermajority

/-! Rosters: the peers that may decide a round, in an order that every node computes alike.
A roster lists them by ascending addresses, and no key occurs twice.
-/

namespace Quorum

structure Peer where
  address : String
  key : PublicKey
  deriving DecidableEq

namespace Peer

def addressBytes (peer : Peer) : Bytes :=
  Bytes.ofText peer.address

/-- Peers are ordered by the bytes of their addresses, then by their keys. -/
def le (left right : Peer) : Bool :=
  if left.addressBytes = right.addressBytes then left.key.le right.key
  else left.addressBytes < right.addressBytes

theorem le_total (left right : Peer) : (left.le right || right.le left) = true := by
  unfold le
  by_cases same : left.addressBytes = right.addressBytes
  · simpa [same] using PublicKey.le_total left.key right.key
  · by_cases before : left.addressBytes < right.addressBytes
    · simp [same, before]
    · by_cases after : right.addressBytes < left.addressBytes
      · simp [same, Ne.symm same, after]
      · exact absurd (List.le_antisymm (List.not_lt.mp after) (List.not_lt.mp before)) same

theorem le_trans (first second third : Peer) (h : first.le second = true)
    (h' : second.le third = true)
    : first.le third = true := by
  unfold le at *
  by_cases h1 : first.addressBytes = second.addressBytes <;>
    by_cases h2 : second.addressBytes = third.addressBytes
  · simp_all
    exact PublicKey.le_trans _ _ _ h h'
  · simp_all
  · simp_all
  · simp only [h1, h2, if_false, decide_eq_true_eq] at h h'
    have before := List.lt_trans h h'
    have differ : first.addressBytes ≠ third.addressBytes := by
      intro same
      exact List.lt_irrefl _ (same ▸ before)
    simp [differ, before]

/-- The address of one peer comes strictly before that of the other. -/
def Before (left right : Peer) : Prop :=
  left.addressBytes < right.addressBytes

instance (left right : Peer) : Decidable (left.Before right) :=
  inferInstanceAs (Decidable (_ < _))

/-- What is wrong with a peer by itself. -/
def defect? (peer : Peer) : Option PeerDefect :=
  if (Text.trimBlank peer.address.toList).isEmpty then some .blankAddress
  else if peer.key.bytes.isEmpty then some (.emptyKey peer.address)
  else none

end Peer

/-- The peers that may decide a round. -/
structure Roster where
  peers : List Peer
  nonempty : peers ≠ []
  ascending : peers.Pairwise Peer.Before
  distinctKeys : (peers.map Peer.key).Nodup

namespace Roster

/-- The first address that two neighbours share. -/
def repeatedAddress? : List Peer → Option String
  | first :: second :: rest =>
      if first.addressBytes = second.addressBytes then some first.address
      else repeatedAddress? (second :: rest)
  | _ => none

/-- The distinct peers in order. -/
def arrange (peers : List Peer) : List Peer :=
  peers.eraseDups.mergeSort Peer.le

theorem arrange_eq_nil {peers : List Peer} : arrange peers = [] ↔ peers = [] := by
  constructor
  · intro h
    have members : ∀ peer, peer ∉ peers := by
      intro peer present
      have := (List.mergeSort_perm peers.eraseDups Peer.le).mem_iff.mpr
        (List.mem_eraseDups.mpr present)
      simp only [arrange] at h
      simp [h] at this
    exact List.eq_nil_iff_forall_not_mem.mpr members
  · rintro rfl
    simp [arrange]

/-- Among arranged peers, neighbours tell whether any two share an address. -/
theorem pairwise_before {peers : List Peer} (sorted : peers.Pairwise (·.le · = true))
    (distinct : repeatedAddress? peers = none)
    : peers.Pairwise Peer.Before := by
  induction peers with
  | nil => exact .nil
  | cons first rest ih =>
      cases rest with
      | nil => exact List.pairwise_singleton _ _
      | cons second rest =>
          rw [repeatedAddress?] at distinct
          split at distinct
          · contradiction
          · next differ =>
              have later := ih sorted.tail distinct
              have next : first.Before second := by
                have := List.rel_of_pairwise_cons sorted (List.mem_cons_self ..)
                simpa [Peer.le, differ, Peer.Before] using this
              refine List.pairwise_cons.mpr ⟨?_, later⟩
              intro peer member
              rcases List.mem_cons.mp member with rfl | member
              · exact next
              · exact List.lt_trans next (List.rel_of_pairwise_cons later member)

theorem arrange_sorted (peers : List Peer) : (arrange peers).Pairwise (·.le · = true) :=
  List.pairwise_mergeSort Peer.le_trans Peer.le_total _

/-- Builds the roster of some peers. Repeated entries count once; an address with two keys or a
key with two addresses is refused.
-/
def ofPeers (peers : List Peer) : Except Fault Roster :=
  if absent : peers = [] then .error .emptyPeerList
  else
    match peers.findSome? Peer.defect? with
    | some defect => .error (.malformedPeer defect)
    | none =>
        match unique : repeatedAddress? (arrange peers) with
        | some address => .error (.malformedPeer (.repeatedAddress address))
        | none =>
            if distinct : ((arrange peers).map Peer.key).Nodup then
              .ok
                { peers := arrange peers
                  nonempty := mt arrange_eq_nil.mp absent
                  ascending := pairwise_before (arrange_sorted peers) unique
                  distinctKeys := distinct }
            else .error (.malformedPeer .repeatedKey)

instance : BEq Roster where
  beq left right := left.peers == right.peers

def size (roster : Roster) : Nat :=
  roster.peers.length

/-- The fewest votes that decide under a roster. -/
def threshold (roster : Roster) : Nat :=
  Supermajority.threshold roster.size

def peer? (roster : Roster) (key : PublicKey) : Option Peer :=
  roster.peers.find? (·.key = key)

/-- The key belongs to a peer of the roster. -/
def Has (roster : Roster) (key : PublicKey) : Prop :=
  ∃ peer ∈ roster.peers, peer.key = key

instance (roster : Roster) (key : PublicKey) : Decidable (roster.Has key) :=
  inferInstanceAs (Decidable (∃ peer ∈ roster.peers, peer.key = key))

end Roster

/-- The rosters that a round may be decided under: a primary, and an alternative while the set
of peers is changing.
-/
structure Electorate where
  primary : Roster
  alternative : Option Roster

namespace Electorate

def Has (electorate : Electorate) (key : PublicKey) : Prop :=
  electorate.primary.Has key ∨ ∃ roster ∈ electorate.alternative, roster.Has key

instance (electorate : Electorate) (key : PublicKey) : Decidable (electorate.Has key) :=
  inferInstanceAs (Decidable (_ ∨ ∃ roster ∈ electorate.alternative, roster.Has key))

def peer? (electorate : Electorate) (key : PublicKey) : Option Peer :=
  electorate.primary.peer? key <|> electorate.alternative.bind (·.peer? key)

/-- The peers of both rosters, those of the primary first, each address once. -/
def peers (electorate : Electorate) : List Peer :=
  let primary := electorate.primary.peers
  match electorate.alternative with
  | none => primary
  | some alternative =>
      primary ++ alternative.peers.filter fun peer => peer.address ∉ primary.map Peer.address

end Electorate

end Quorum
