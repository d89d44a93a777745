import Quorum.Node
import Quorum.Proofs.Conductor.Participation
import Quorum.Proofs.Config.Validation
import Quorum.Proofs.Gate.Refusals

/-! The operation of nodes with valid configurations. A node whose peers make up a roster enters its
rounds under it, and votes in them. A node whose peers do not is idle for ever.
-/

namespace Quorum

-----------------------------------------------------------------------------------------
-- Reminders
-----------------------------------------------------------------------------------------

theorem Gate.gate_rebroadcast (task : Rebroadcast) (gate : Gate)
    : ((rebroadcast task).run gate).2.1 = gate := by
  have ends := ringing task gate
  generalize (rebroadcast task).run gate = ending at ends ⊢
  cases ends <;> rfl

/-- A reminder that rings leaves the gate as it is, however often it does so in a row. -/
theorem Reminder.gate_ringMore (more : Nat) (reminder : Reminder) (gate : Gate)
    : (ringMore more reminder gate).2.1 = gate := by
  have once (reminder : Reminder) : (reminder.ringOnce gate).2.1 = gate :=
    Gate.gate_rebroadcast reminder.task gate
  induction more generalizing reminder with
  | zero => exact once reminder
  | succ more ih =>
      have same := once reminder
      unfold ringMore
      generalize reminder.ringOnce gate = ending at same ⊢
      obtain ⟨rest, later, effects⟩ := ending
      obtain rfl : later = gate := same
      cases rest with
      | none => rfl
      | some rest => exact ih rest

namespace Node

variable {first node next : Node} {effects : List Effect} {limit : Nat}

-----------------------------------------------------------------------------------------
-- Lives of nodes
-----------------------------------------------------------------------------------------

/-- The nodes that a first one becomes until it is stopped. Bundles come in between any two steps,
and time passes.
-/
inductive Lives (first : Node) : Node → Prop
  | start : Lives first first
  | step {node next : Node} {limit : Nat} {effects : List Effect} (lives : Lives first node)
    (step : node.step limit = some (next, effects))
    : Lives first next
  | deliver {node : Node} (lives : Lives first node) (votes : List Vote)
    : Lives first (node.deliver votes).2.1
  | wait {node : Node} (lives : Lives first node) (now : Nat)
    : Lives first { node with conductor := { node.conductor with now } }

/-- Whatever is due by a moment gets done, until nothing is; by induction on what is due. -/
theorem Lives.runUntil (lives : Lives first node) (limit : Nat)
    : ∃ last, Lives first last ∧ last.step limit = none
        ∧ (node.runUntil limit).1.conductor
          = { last.conductor with now := max last.conductor.now limit } := by
  fun_induction Node.runUntil node limit with
  | case1 node due => exact ⟨node, lives, due, rfl⟩
  | case2 node next effects due last later rest ih =>
      rw [rest] at ih
      exact ih (lives.step due)

/-- A step is one of the conductor, or a reminder that makes no difference for that. -/
theorem step_cases (step : node.step limit = some (next, effects))
    : (∃ moment, node.conductor.step moment = some (next.conductor, effects))
      ∨ ∃ now, next.conductor = { node.conductor with now } := by
  unfold Node.step at step
  split at step
  · next stepped =>
      cases step
      exact .inl ⟨_, stepped⟩
  · split at step
    · cases step
    · next reminder agenda _ =>
        cases step
        have same := Reminder.gate_ringMore (if node.delay = 0 then 127 else 0) reminder
          node.conductor.gate
        let now := max node.conductor.now agenda.now
        exact .inr ⟨now, congrArg (fun gate => { node.conductor with gate, now }) same⟩

/-- A step that is due for the conductor is due for the node. -/
theorem exists_step {conductor : Conductor}
    (step : node.conductor.step (node.horizon limit) = some (conductor, effects))
    : ∃ next, node.step limit = some (next, effects) ∧ next.conductor = conductor := by
  unfold Node.step
  rw [step]
  exact ⟨_, rfl, rfl⟩

/-- The conductor of a node is on the journey that it began, by induction on the life of the node.
-/
theorem Lives.journey {charter : Conductor.Charter} (lives : Lives first node)
    (fresh : first.conductor = charter.start)
    : ∃ round, Conductor.Journey charter node.conductor round := by
  induction lives with
  | start => exact ⟨⟨1, 0⟩, fresh ▸ .start⟩
  | step _ step ih =>
      obtain ⟨round, journey⟩ := ih
      rcases step_cases step with ⟨moment, stepped⟩ | ⟨now, waited⟩
      · exact ⟨_, journey.step stepped⟩
      · exact ⟨round, waited ▸ journey.wait now⟩
  | deliver _ votes ih =>
      obtain ⟨round, journey⟩ := ih
      exact ⟨round, journey.deliver votes⟩
  | wait _ now ih =>
      obtain ⟨round, journey⟩ := ih
      exact ⟨round, journey.wait now⟩

-----------------------------------------------------------------------------------------
-- Nodes with a roster
-----------------------------------------------------------------------------------------

/-- The node works under a roster: it votes for what it proposes, as far as it can sign that. -/
structure Works (credentials : Credentials) (propose : Round → Candidate) (roster : Roster)
    (node : Node) : Prop where
  /-- It enters the round that is next, and goes on to vote unless the round is decided. -/
  enters
    : node.conductor.stage = .entering → ∀ limit,
        ∃ next effects, node.step limit = some (next, effects)
          ∧ next.conductor.gate.electorate = some ⟨roster, none⟩
          ∧ next.conductor.gate.book.current = node.conductor.round
          ∧ (next.conductor.stage = .voting roster
            ∨ next.conductor.stage = .waiting
              ∧ (next.conductor.gate.book.decision node.conductor.round).isSome)
  votes
    : ∀ named, node.conductor.stage = .voting named →
        named = roster ∧ ∀ limit,
          ∃ next effects, node.step limit = some (next, effects)
            ∧ next.conductor.stage = .waiting
            ∧ Gate.Casting credentials (propose node.conductor.round) ⟨roster, none⟩
                node.conductor.gate next.conductor.gate effects
  /-- While it waits, there is nothing left to do in its round. -/
  waits
    : node.conductor.Waits →
        node.conductor.gate.electorate = some ⟨roster, none⟩
        ∧ node.conductor.gate.Served credentials (propose node.conductor.gate.book.current)
  /-- It comes to wait as time passes, unless there is no next round. -/
  settles
    : ∀ limit, (node.runUntil limit).1.conductor.Waits
        ∨ ∃ overflow, (node.runUntil limit).1.conductor.stage = .failed overflow

theorem Lives.works {charter : Conductor.Charter} (lives : Lives first node)
    (fresh : first.conductor = charter.start)
    : node.Works charter.settings.credentials charter.propose charter.roster := by
  obtain ⟨round, journey⟩ := lives.journey fresh
  have course := journey.onCourse
  have turn := journey.turn
  refine ⟨fun stage limit => ?_, fun named stage => ?_, fun waits => ?_, fun limit => ?_⟩
  · obtain ⟨_, effects, enters, entry⟩ := course.exists_entry stage (node.horizon limit)
    obtain ⟨next, step, rfl⟩ := exists_step enters
    exact ⟨next, effects, step, entry.known, entry.current, entry.onward⟩
  · refine ⟨?_, fun limit => ?_⟩
    · rw [Conductor.Turn, stage] at turn
      exact turn.1
    · obtain ⟨_, effects, votes, waiting, casting⟩ :=
        course.exists_casting turn stage (node.horizon limit)
      obtain ⟨next, step, rfl⟩ := exists_step votes
      exact ⟨next, effects, step, waiting, casting⟩
  · obtain ⟨known, served⟩ := turn.atRest waits
    exact ⟨known, served⟩
  · obtain ⟨last, living, still, same⟩ := lives.runUntil limit
    obtain ⟨round, journey⟩ := living.journey fresh
    have course := journey.onCourse
    rw [same]
    cases course.leg with
    | entering stage _ _ =>
        obtain ⟨_, _, enters, -⟩ := course.exists_entry stage (last.horizon limit)
        obtain ⟨_, step, -⟩ := exists_step enters
        cases still.symm.trans step
    | voting stage _ _ _ =>
        obtain ⟨_, _, votes, -⟩ := course.exists_casting journey.turn stage (last.horizon limit)
        obtain ⟨_, step, -⟩ := exists_step votes
        cases still.symm.trans step
    | waiting stage _ _ _ | pausing stage _ _ _ => simp [Conductor.Waits, stage]
    | failed stage => exact .inr ⟨_, stage⟩

-----------------------------------------------------------------------------------------
-- Nodes without a roster
-----------------------------------------------------------------------------------------

/-- The node has no roster, and has not done anything since it was set up. -/
structure Stranded (window : UInt64) (node : Node) : Prop where
  disarranged : ¬ ∃ roster, Roster.ofPeers node.conductor.peers = .ok roster
  untouched : node.conductor.gate = .initial window
  pending : node.conductor.pending = []
  stream : node.conductor.stream = []
  silent : node.agenda.entries = []
  stage : node.conductor.stage = .entering ∨ node.conductor.stage = .waiting

namespace Stranded

variable {window : UInt64}

/-- The round cannot be entered. -/
theorem enters (stranded : node.Stranded window) (stage : node.conductor.stage = .entering)
    (moment : Nat)
    : node.conductor.step moment = some ({ node.conductor with stage := .waiting }, []) := by
  cases arranged : Roster.ofPeers node.conductor.peers with
  | ok roster => exact absurd ⟨roster, arranged⟩ stranded.disarranged
  | error fault => simp [Conductor.step, stage, Conductor.enter, arranged]

/-- A step is in vain, and the last one. -/
theorem step (stranded : node.Stranded window) (step : node.step limit = some (next, effects))
    : effects = [] ∧ next.Stranded window := by
  unfold Node.step at step
  rcases stranded.stage with stage | stage
  · rw [stranded.enters stage] at step
    cases step
    exact ⟨rfl, stranded.disarranged, stranded.untouched, stranded.pending, stranded.stream,
      stranded.silent, .inr rfl⟩
  · have waits : node.conductor.step (node.horizon limit) = none := by
      simp [Conductor.step, stage, Conductor.takeOutcome?, stranded.pending, stranded.stream]
    have quiet : node.agenda.take? limit = none := by
      simp [Agenda.take?, stranded.silent]
    rw [waits, quiet] at step
    cases step

/-- However much time passes, the node only comes to wait; by induction on what is due. -/
theorem runUntil (stranded : node.Stranded window) (limit : Nat)
    : (node.runUntil limit).2 = [] ∧ (node.runUntil limit).1.conductor.stage = .waiting := by
  fun_induction Node.runUntil node limit with
  | case1 node due =>
      refine ⟨rfl, stranded.stage.resolve_left fun stage => ?_⟩
      obtain ⟨_, step, -⟩ := exists_step (stranded.enters stage (node.horizon limit))
      cases due.symm.trans step
  | case2 node next effects due last later rest ih =>
      obtain ⟨rfl, behind⟩ := stranded.step due
      rw [rest] at ih
      exact ih behind

/-- Without an electorate the gate has no use for any bundle. -/
theorem deliver (stranded : node.Stranded window) (votes : List Vote)
    : (node.deliver votes).2.1.Stranded window := by
  have useless : Gate.Useless node.conductor.settings votes [Gate.initial window] :=
    .strange (List.forall_mem_singleton.mpr nofun)
  obtain ⟨same, counts⟩ := useless.receive (.initial window)
  have quiet
      : Conductor.surfaced
          ((Gate.receive node.conductor.settings votes).run (.initial window)).2.2 = [] := by
    refine List.filterMap_eq_nil_iff.mpr fun effect member => ?_
    have counts := counts effect member
    cases effect with
    | count _ _ => rfl
    | send _ _ | surface _ | commit _ _ | schedule _ => exact counts.elim
  have stays : (node.conductor.deliver votes).2.1 = node.conductor := by
    rw [Conductor.deliver_eq]
    simp only [Conductor.noting, Gate.Call.deed, Gate.Call.activity, Gate.Activity.run_bind,
      Gate.Activity.run_pure, List.append_nil, stranded.untouched, same, quiet]
    rw [← stranded.untouched]
  have idle : (node.deliver votes).2.1 = node :=
    congrArg (fun conductor => { node with conductor }) stays
  rw [idle]
  exact stranded

/-- By induction on the life of the node. -/
theorem of_lives (stranded : first.Stranded window) (lives : Lives first node)
    : node.Stranded window := by
  induction lives with
  | start => exact stranded
  | step _ step ih => exact (ih.step step).2
  | deliver _ votes ih => exact ih.deliver votes
  | wait _ now ih =>
      exact ⟨ih.disarranged, ih.untouched, ih.pending, ih.stream, ih.silent, ih.stage⟩

end Stranded

/-- The node never enters a round. It has no electorate, keeps no votes and sends none, and waits in
vain.
-/
structure Idles (window : UInt64) (node : Node) : Prop where
  untouched : node.conductor.gate = .initial window
  silent : ∀ limit, (node.runUntil limit).2 = []
  waits : ∀ limit, (node.runUntil limit).1.conductor.stage = .waiting

-----------------------------------------------------------------------------------------
-- Nodes of valid configurations
-----------------------------------------------------------------------------------------

/-- With a valid configuration there is a node, set up with its peers. -/
theorem exists_ofConfig {config : Config} {peers : List Peer} (listed : config.peerList = .ok peers)
    (propose : Round → Candidate) (keyFile : Except FileDefect Bytes)
    : ∃ algorithm,
        config.algorithm = .ok algorithm
        ∧ ofConfig config propose keyFile
          = .ok
              { conductor := .start
                  { credentials := .ofKeypair (Keypair.ofFile algorithm keyFile).toOption
                    rebroadcasts := config.consensus.rebroadcasts.toNat }
                  config.consensus.window peers propose config.consensus.roundDelay.toNat
                agenda := .empty
                delay := config.consensus.voteDelay.toNat } := by
  obtain ⟨algorithm, known, -⟩ := Config.bind_eq_ok.mp listed
  unfold ofConfig
  rw [known, listed]
  exact ⟨algorithm, rfl, rfl⟩

/-- A valid configuration lists peers, and there is a node with it. The peers make up a roster if no
address is blank and all keys are distinct. Then the node works under that roster throughout, which
means that it votes in each round that it enters, unless the round is decided by then or its key is
of no use. Otherwise the node is idle for ever.
-/
theorem works_or_idles {config : Config} (valid : config.validate = .ok ())
    : ∃ peers, config.peerList = .ok peers
        ∧ ((∃ roster, Roster.ofPeers peers = .ok roster)
          ↔ (∀ peer ∈ peers, ∃ character ∈ peer.address.toList, ¬ Text.Blank character)
            ∧ (peers.map Peer.key).Nodup)
        ∧ ∀ (propose : Round → Candidate) (keyFile : Except FileDefect Bytes),
            (∀ round, (propose round).round = round) →
            ∃ algorithm first,
              config.algorithm = .ok algorithm ∧ ofConfig config propose keyFile = .ok first
              ∧ ∀ node, Lives first node →
                  (∀ roster, Roster.ofPeers peers = .ok roster →
                    node.Works (.ofKeypair (Keypair.ofFile algorithm keyFile).toOption) propose
                      roster)
                  ∧ ((¬ ∃ roster, Roster.ofPeers peers = .ok roster) →
                      node.Idles config.consensus.window) := by
  obtain ⟨peers, valid⟩ := Config.validate_eq_ok.mp valid
  refine ⟨peers, valid.listed, valid.exists_roster_iff, fun propose keyFile ofRound => ?_⟩
  obtain ⟨algorithm, known, made⟩ := exists_ofConfig valid.listed propose keyFile
  refine ⟨algorithm, _, known, made, fun node lives => ⟨fun roster arranged => ?_, ?_⟩⟩
  · let charter : Conductor.Charter :=
      { settings :=
          { credentials := .ofKeypair (Keypair.ofFile algorithm keyFile).toOption
            rebroadcasts := config.consensus.rebroadcasts.toNat }
        window := config.consensus.window
        peers, roster, arranged, propose, ofRound
        delay := config.consensus.roundDelay.toNat }
    exact lives.works (rfl : _ = charter.start)
  · intro disarranged
    have stranded := Stranded.of_lives ⟨disarranged, rfl, rfl, rfl, rfl, .inl rfl⟩ lives
    exact ⟨stranded.untouched, fun limit => (stranded.runUntil limit).1,
      fun limit => (stranded.runUntil limit).2⟩

/-- The default configuration with two peers. The second one has the key of the first one, or
another.
-/
def pairedConfig (second : UInt8) : Config :=
  { Config.default with
    peers :=
      [⟨"127.0.0.1:1", List.replicate 32 1, none⟩,
        ⟨"127.0.0.1:2", List.replicate 32 second, none⟩] }

/-- The peers of the configuration. -/
def pairedPeers (second : UInt8) : List Peer :=
  [⟨"127.0.0.1:1", ⟨.ed25519Sha256, List.replicate 32 1⟩⟩,
    ⟨"127.0.0.1:2", ⟨.ed25519Sha256, List.replicate 32 second⟩⟩]

theorem peerList_pairedConfig (second : UInt8)
    : (pairedConfig second).peerList = .ok (pairedPeers second) := rfl

theorem validate_pairedConfig (second : UInt8) : (pairedConfig second).validate = .ok () := by
  refine Config.validate_eq_ok.mpr
    ⟨pairedPeers second, List.cons_ne_nil _ _, ?_, ?_, peerList_pairedConfig second⟩
  · simp [pairedConfig]
  · simp [pairedConfig]

theorem not_blank_pairedPeers {second : UInt8}
    : ∀ peer ∈ pairedPeers second, ∃ character ∈ peer.address.toList, ¬ Text.Blank character := by
  intro peer member
  refine ⟨'1', ?_, by decide⟩
  rcases List.mem_pair.mp member with rfl | rfl
  · change '1' ∈ "127.0.0.1:1".toList
    decide
  · change '1' ∈ "127.0.0.1:2".toList
    decide

theorem nodup_keys_pairedPeers {second : UInt8} (other : second ≠ 1)
    : ((pairedPeers second).map Peer.key).Nodup := by
  refine List.nodup_cons.mpr ⟨fun again => ?_, List.nodup_singleton _⟩
  have same := congrArg (·.bytes.head?) (List.mem_singleton.mp again)
  exact other (Option.some.inj same).symm

/-- Two peers with distinct keys make up a roster, and a node with both of them enters its first
round under it.
-/
theorem works_with_distinct_keys
    : (pairedConfig 2).validate = .ok ()
      ∧ (∀ round, (Candidate.empty round).round = round)
      ∧ ∃ algorithm roster first next effects,
          Roster.ofPeers (pairedPeers 2) = .ok roster
          ∧ ofConfig (pairedConfig 2) .empty (.ok (List.replicate 64 48)) = .ok first
          ∧ first.Works
              (.ofKeypair (Keypair.ofFile algorithm (.ok (List.replicate 64 48))).toOption) .empty
              roster
          ∧ first.step 0 = some (next, effects)
          ∧ next.conductor.gate.electorate = some ⟨roster, none⟩ := by
  have valid := validate_pairedConfig 2
  have ofRound (round : Round) : (Candidate.empty round).round = round := rfl
  obtain ⟨peers, listed, arranged, works⟩ := works_or_idles valid
  obtain rfl := Except.ok.inj (listed.symm.trans (peerList_pairedConfig 2))
  obtain ⟨roster, built⟩ :=
    arranged.mpr ⟨not_blank_pairedPeers, nodup_keys_pairedPeers (by decide)⟩
  obtain ⟨algorithm, first, -, made, lives⟩ := works .empty (.ok (List.replicate 64 48)) ofRound
  have works := (lives first .start).1 roster built
  have stage : first.conductor.stage = .entering := by
    obtain ⟨_, -, made'⟩ := exists_ofConfig (peerList_pairedConfig 2) .empty
      (.ok (List.replicate 64 48))
    cases made'.symm.trans made
    rfl
  obtain ⟨next, effects, step, known, -⟩ := works.enters stage 0
  exact ⟨valid, ofRound, algorithm, roster, first, next, effects, built, made, works, step, known⟩

/-- A valid configuration may list peers that do not make up a roster. -/
theorem not_roster_of_valid
    : ¬ ∀ config : Config, config.validate = .ok () →
        ∃ peers roster, config.peerList = .ok peers ∧ Roster.ofPeers peers = .ok roster := by
  intro always
  obtain ⟨peers, roster, listed, built⟩ := always (pairedConfig 1) (validate_pairedConfig 1)
  obtain rfl := Except.ok.inj (listed.symm.trans (peerList_pairedConfig 1))
  have proper := Roster.exists_ofPeers_iff.mp ⟨roster, built⟩
  have same := proper.keys _ List.mem_cons_self _ (List.mem_cons_of_mem _ List.mem_cons_self) rfl
  exact absurd (congrArg Peer.address same) (by decide)

end Node

end Quorum
