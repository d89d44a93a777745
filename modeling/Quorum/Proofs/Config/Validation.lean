import Quorum.Config
import Quorum.Proofs.Roster.Construction

/-! Valid configurations, and the rosters of their peers. A valid configuration names peers with
distinct addresses and keys of the right length. Whether they make up a roster also depends on what
is not checked: their keys may be the same, and their addresses blank.
-/

namespace Quorum.Config

theorem bind_eq_ok {α β : Type} {first : Except Fault α} {next : α → Except Fault β} {value : β}
    : (first >>= next) = .ok value ↔ ∃ part, first = .ok part ∧ next part = .ok value := by
  cases first with
  | error fault => exact ⟨nofun, nofun⟩
  | ok part =>
      refine ⟨fun made => ⟨part, rfl, made⟩, ?_⟩
      rintro ⟨_, ⟨⟩, made⟩
      exact made

-----------------------------------------------------------------------------------------
-- Peers of entries
-----------------------------------------------------------------------------------------

/-- The peers are those of the entries, one by one. -/
structure Lists (entries : List PeerEntry) (peers : List Peer) : Prop where
  addresses : peers.map Peer.address = entries.map PeerEntry.address
  keys : peers.map (·.key.bytes) = entries.map PeerEntry.key

/-- The scheme of a peer is all that can be wrong with its entry. -/
theorem eq_of_toPeer {common : Algorithm} {entry : PeerEntry} {peer : Peer}
    (made : toPeer common entry = .ok peer)
    : ∃ algorithm, peer = ⟨entry.address, ⟨algorithm, entry.key⟩⟩ := by
  unfold toPeer at made
  split at made
  · obtain ⟨algorithm, -, made⟩ := bind_eq_ok.mp made
    exact ⟨algorithm, (Except.ok.inj made).symm⟩
  · exact ⟨common, (Except.ok.inj made).symm⟩

/-- By induction on the entries. -/
theorem lists_of_mapM {common : Algorithm} {entries : List PeerEntry} {peers : List Peer}
    (made : entries.mapM (toPeer common) = .ok peers)
    : Lists entries peers := by
  induction entries generalizing peers with
  | nil =>
      cases made
      exact ⟨rfl, rfl⟩
  | cons entry rest ih =>
      rw [List.mapM_cons] at made
      obtain ⟨peer, first, made⟩ := bind_eq_ok.mp made
      obtain ⟨later, others, made⟩ := bind_eq_ok.mp made
      cases made
      obtain ⟨algorithm, rfl⟩ := eq_of_toPeer first
      obtain ⟨addresses, keys⟩ := ih others
      exact ⟨by rw [List.map_cons, List.map_cons, addresses],
        by rw [List.map_cons, List.map_cons, keys]⟩

theorem lists_of_peerList {config : Config} {peers : List Peer}
    (listed : config.peerList = .ok peers)
    : Lists config.peers peers := by
  obtain ⟨common, -, made⟩ := bind_eq_ok.mp listed
  exact lists_of_mapM made

-----------------------------------------------------------------------------------------
-- Valid configurations
-----------------------------------------------------------------------------------------

/-- Entries pass if their addresses are new, and their keys of the right length; by induction on
them.
-/
theorem checkEntries_eq_ok {seen : List String} {entries : List PeerEntry}
    : checkEntries seen entries = .ok ()
      ↔ (∀ entry ∈ entries, entry.address ∉ seen ∧ entry.key.length = 32)
        ∧ (entries.map PeerEntry.address).Nodup := by
  induction entries generalizing seen with
  | nil => simp [checkEntries]
  | cons entry rest ih =>
      unfold checkEntries
      split
      · next repeated => simp [repeated]
      next new =>
      split
      · next length => simp [length]
      · next length =>
          rw [ih, List.map_cons, List.nodup_cons, List.forall_mem_cons]
          simp only [List.mem_cons, not_or, List.mem_map, not_exists, not_and]
          constructor
          · rintro ⟨others, distinct⟩
            refine ⟨⟨⟨new, not_not.mp length⟩, fun other member => ?_⟩, ?_, distinct⟩
            · exact ⟨(others other member).1.2, (others other member).2⟩
            · exact fun other member => (others other member).1.1
          · rintro ⟨⟨-, others⟩, apart, distinct⟩
            refine ⟨fun other member => ?_, distinct⟩
            exact ⟨⟨apart other member, (others other member).1⟩, (others other member).2⟩

/-- What a valid configuration provides. -/
structure Valid (config : Config) (peers : List Peer) : Prop where
  inhabited : config.peers ≠ []
  addresses : (config.peers.map PeerEntry.address).Nodup
  keys : ∀ entry ∈ config.peers, entry.key.length = 32
  listed : config.peerList = .ok peers

/-- All that is required of a configuration is that it lists peers, with distinct addresses and keys
of the right length, and that all schemes are known.
-/
theorem validate_eq_ok {config : Config}
    : config.validate = .ok () ↔ ∃ peers, config.Valid peers := by
  have checked := @checkEntries_eq_ok [] config.peers
  simp only [List.not_mem_nil, not_false_eq_true, true_and] at checked
  unfold validate
  by_cases nobody : config.peers = []
  · rw [if_pos nobody]
    refine ⟨nofun, ?_⟩
    rintro ⟨peers, valid⟩
    exact absurd nobody valid.inhabited
  rw [if_neg nobody]
  simp only [bind_eq_ok]
  constructor
  · rintro ⟨common, scheme, ⟨⟩, passed, peers, listed, -⟩
    obtain ⟨keys, addresses⟩ := checked.mp passed
    exact ⟨peers, nobody, addresses, keys, listed⟩
  · rintro ⟨peers, valid⟩
    obtain ⟨common, scheme, -⟩ := bind_eq_ok.mp valid.listed
    exact ⟨common, scheme, (), checked.mpr ⟨valid.keys, valid.addresses⟩, peers, valid.listed, rfl⟩

-----------------------------------------------------------------------------------------
-- Rosters of valid configurations
-----------------------------------------------------------------------------------------

namespace Valid

variable {config : Config} {peers : List Peer}

theorem ne_nil (valid : config.Valid peers) : peers ≠ [] := by
  rintro rfl
  have entries := (lists_of_peerList valid.listed).addresses
  exact valid.inhabited (List.map_eq_nil_iff.mp entries.symm)

theorem nodup_addresses (valid : config.Valid peers) : (peers.map Peer.address).Nodup := by
  rw [(lists_of_peerList valid.listed).addresses]
  exact valid.addresses

theorem key_ne_nil (valid : config.Valid peers) {peer : Peer} (member : peer ∈ peers)
    : peer.key.bytes ≠ [] := by
  have listed : peer.key.bytes ∈ peers.map (·.key.bytes) := List.mem_map_of_mem member
  rw [(lists_of_peerList valid.listed).keys] at listed
  obtain ⟨entry, member, same⟩ := List.mem_map.mp listed
  rintro empty
  have length := valid.keys entry member
  rw [same, empty] at length
  cases length

/-- The peers of a valid configuration make up a roster if no address is blank, and no key is listed
twice. The rest of what a roster takes has been checked.
-/
theorem exists_roster_iff (valid : config.Valid peers)
    : (∃ roster, Roster.ofPeers peers = .ok roster)
      ↔ (∀ peer ∈ peers, ∃ character ∈ peer.address.toList, ¬ Text.Blank character)
        ∧ (peers.map Peer.key).Nodup := by
  rw [Roster.exists_ofPeers_iff]
  have apart := valid.nodup_addresses
  constructor
  · intro proper
    refine ⟨fun peer member => (proper.sound peer member).address, ?_⟩
    exact (List.nodup_map_iff_inj_on (List.Nodup.of_map _ apart)).mpr proper.keys
  · rintro ⟨written, keys⟩
    refine ⟨valid.ne_nil, fun peer member => ⟨written peer member, ?_⟩, ?_, ?_⟩
    · exact valid.key_ne_nil member
    · exact List.inj_on_of_nodup_map apart
    · exact List.inj_on_of_nodup_map keys

end Valid

end Quorum.Config
