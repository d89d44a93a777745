import Mathlib.Data.Set.Card
import Mathlib.Logic.Hydra
import Quorum.Cluster
import Quorum.Proofs.Agreement.Round
import Quorum.Proofs.Gate.Run

/-! The exchange of decisions among gates that have closed a round. A gate answers a bundle of the
round with its decision, to each peer whose vote it does not count itself, and that decision is a
bundle in turn. The exchange ends just if no bundle under way leads to a ring of answers.
-/

namespace Quorum

open Relation Function

-----------------------------------------------------------------------------------------
-- Rings of relations
-----------------------------------------------------------------------------------------

section

variable {α : Type} {relation : α → α → Prop}

theorem not_transGen_of_acc {item : α} (acc : Acc (swap relation) item)
    : ¬ TransGen relation item item := by
  induction acc with
  | intro item _ ih =>
      intro ring
      obtain ⟨next, first, rest⟩ := TransGen.head'_iff.mp ring
      exact ih next first (TransGen.tail' rest first)

theorem acc_of_reflTransGen {first last : α} (path : ReflTransGen relation first last)
    (acc : Acc (swap relation) first)
    : Acc (swap relation) last := by
  induction path with
  | refl => exact acc
  | tail _ step ih => exact ih.inv step

/-- Where only finitely many items can be come to, all ways end that lead to no ring. The items
ahead get fewer with each step.
-/
theorem acc_of_no_ring (finite : {last | ∃ first, relation first last}.Finite) {start : α}
    (no_ring : ∀ last, ReflTransGen relation start last → ¬ TransGen relation last last)
    : Acc (swap relation) start := by
  generalize ahead : {last | TransGen relation start last}.ncard = count
  induction count using Nat.strong_induction_on generalizing start with
  | _ count ih =>
      refine .intro start fun next step => ?_
      have within : {last | TransGen relation start last}.Finite := by
        refine finite.subset fun last path => ?_
        obtain ⟨before, -, step⟩ := TransGen.tail'_iff.mp path
        exact ⟨before, step⟩
      have fewer
          : {last | TransGen relation next last} ⊂ {last | TransGen relation start last} := by
        refine ⟨fun last path => TransGen.head step path, fun all => ?_⟩
        exact no_ring next (.single step) (all (.single step))
      refine ih _ (ahead ▸ Set.ncard_lt_ncard fewer within) ?_ rfl
      exact fun last path => no_ring last (.head step path)

theorem acc_iff_no_ring (finite : {last | ∃ first, relation first last}.Finite) {start : α}
    : Acc (swap relation) start
      ↔ ∀ last, ReflTransGen relation start last → ¬ TransGen relation last last :=
  ⟨fun acc _ path => not_transGen_of_acc (acc_of_reflTransGen path acc), acc_of_no_ring finite⟩

end

-----------------------------------------------------------------------------------------
-- Answers of a gate
-----------------------------------------------------------------------------------------

namespace Gate

/-- A gate that has closed the round of a bundle is left as it is, and asks for no rebroadcast. -/
theorem receive_of_closed (settings : Settings) {votes : List Vote} {gate : Gate} {round : Round}
    (sound : Bundle.round votes = .ok round) (closed : gate.book.Closed round)
    : ((receive settings votes).run gate).2.1 = gate
      ∧ ∀ task, .schedule task ∉ ((receive settings votes).run gate).2.2 := by
  have ends := receiving settings votes gate
  generalize ((receive settings votes).run gate).2 = ending at ends
  cases ends with
  | ignored | dropped | answered _ _ _ _ _ => simp
  | collected _ sound' _ active _ _ =>
      cases sound.symm.trans sound'
      exact absurd closed active

/-- What it sends to a peer is its decision, which does not count the vote of the peer. -/
theorem send_of_closed {settings : Settings} {votes sent : List Vote} {gate : Gate}
    {round : Round} {peer : Peer} (sound : Bundle.round votes = .ok round)
    (closed : gate.book.Closed round)
    (sends : .send peer sent ∈ ((receive settings votes).run gate).2.2)
    : ∃ decision electorate, gate.book.decision round = some decision
        ∧ gate.electorate = some electorate ∧ sent = decision.votes
        ∧ peer ∈ laggards decision electorate votes := by
  have ends := receiving settings votes gate
  generalize ((receive settings votes).run gate).2 = ending at ends sends
  cases ends with
  | ignored => cases sends
  | dropped => simp at sends
  | answered _ sound' _ known consulted =>
      cases sound.symm.trans sound'
      obtain ⟨target, lags, same⟩ := List.mem_map.mp sends
      cases same
      exact ⟨_, _, known, consulted, rfl, lags⟩
  | collected _ sound' _ active _ _ =>
      cases sound.symm.trans sound'
      exact absurd closed active

end Gate

-----------------------------------------------------------------------------------------
-- Bundles that are handed over
-----------------------------------------------------------------------------------------

namespace Cluster

/-- Hands a bundle under way to the member that it is addressed to. -/
def hand? (cluster : Cluster) (index : Nat) : Option Cluster := do
  let (parcel, rest) ← cluster.take? index
  let receiver ← rest.addressee? parcel.receiver.key
  let (_, next, _) ← rest.act receiver (Gate.receive · parcel.votes)
  return next

/-- A bundle of the round is handed over. -/
inductive Exchange (round : Round) (cluster : Cluster) : Cluster → Prop
  | hand {index : Nat} {parcel : Parcel} {next : Cluster}
    (underWay : cluster.parcels[index]? = some parcel)
    (ofRound : Bundle.round parcel.votes = .ok round) (handed : cluster.hand? index = some next)
    : Exchange round cluster next

/-- The bundles that a member sends. -/
def sent (member : Nat) (effects : List Effect) : List Parcel :=
  effects.filterMap fun
    | .send peer votes => some ⟨member, peer, votes⟩
    | _ => none

/-- What the addressee of a bundle sends when it gets the bundle. -/
def answers (members : List Member) (parcel : Parcel) : List Parcel :=
  match members.findIdx? fun member => member.key = some parcel.receiver.key with
  | none => []
  | some receiver =>
      match members[receiver]? with
      | none => []
      | some member =>
          sent receiver ((Gate.receive member.settings parcel.votes).run member.gate).2.2

theorem answers_members (cluster : Cluster) (parcel : Parcel)
    : answers cluster.members parcel
      = match cluster.addressee? parcel.receiver.key with
        | none => []
        | some receiver =>
            match cluster.members[receiver]? with
            | none => []
            | some member =>
                sent receiver ((Gate.receive member.settings parcel.votes).run member.gate).2.2 :=
  rfl

/-- A bundle of the round is answered with another bundle. -/
def Provokes (members : List Member) (round : Round) (parcel answer : Parcel) : Prop :=
  Bundle.round parcel.votes = .ok round ∧ answer ∈ answers members parcel

/-- All members have closed the round. -/
def Settled (members : List Member) (round : Round) : Prop :=
  ∀ member ∈ members, member.gate.book.Closed round

instance (members : List Member) (round : Round) : Decidable (Settled members round) :=
  inferInstanceAs (Decidable (∀ member ∈ members, _))

theorem setGate_self {cluster : Cluster} {index : Nat} {member : Member}
    (found : cluster.members[index]? = some member)
    : cluster.setGate index member.gate = cluster := by
  have same
      : cluster.members.modify index (fun entry => { entry with gate := member.gate })
        = cluster.members := by
    refine List.ext_getElem? fun place => ?_
    rw [List.getElem?_modify]
    split
    · next here =>
        obtain rfl := here
        rw [found]
        rfl
    · cases cluster.members[place]? <;> rfl
  rw [setGate, same]

theorem remind_nil (cluster : Cluster) : cluster.remind [] = cluster := by
  unfold remind
  split <;> rfl

theorem ofEffects_eq_nil {times : Nat} {effects : List Effect}
    (quiet : ∀ task, .schedule task ∉ effects)
    : Reminder.ofEffects times effects = [] := by
  refine List.filterMap_eq_nil_iff.mpr fun effect member => ?_
  cases effect with
  | schedule task => exact absurd member (quiet task)
  | send _ _ | surface _ | commit _ _ | count _ _ => rfl

/-- Among members that have closed the round, a bundle of the round that is handed over is replaced
by its answers, and nothing else changes.
-/
theorem hand?_of_settled {cluster : Cluster} {round : Round}
    (settled : Settled cluster.members round) {index : Nat} {parcel : Parcel}
    (underWay : cluster.parcels[index]? = some parcel)
    (ofRound : Bundle.round parcel.votes = .ok round)
    : cluster.hand? index
      = (cluster.addressee? parcel.receiver.key).map fun _ =>
          { cluster with
            parcels := cluster.parcels.eraseIdx index ++ answers cluster.members parcel } := by
  simp only [hand?, take?, underWay, Option.map_some, Option.bind_eq_bind, Option.bind_some]
  rw [show addressee? { cluster with parcels := cluster.parcels.eraseIdx index } parcel.receiver.key
    = cluster.addressee? parcel.receiver.key from rfl]
  rw [answers_members]
  cases found : cluster.addressee? parcel.receiver.key with
  | none => rfl
  | some receiver =>
      obtain ⟨within, -⟩ := List.findIdx?_eq_some_iff_getElem.mp found
      obtain ⟨member, place⟩ : ∃ member, cluster.members[receiver]? = some member :=
        ⟨_, List.getElem?_eq_getElem within⟩
      have closed := settled member (List.mem_of_getElem? place)
      obtain ⟨same, quiet⟩ := Gate.receive_of_closed member.settings ofRound closed
      have unchanged
          : setGate { cluster with parcels := cluster.parcels.eraseIdx index } receiver member.gate
            = { cluster with parcels := cluster.parcels.eraseIdx index } :=
        setGate_self place
      simp only [act, place, Option.map_some, Option.bind_some, same, unchanged,
        ofEffects_eq_nil quiet, List.map_nil, remind_nil]
      rfl

-----------------------------------------------------------------------------------------
-- Answers of a settled cluster
-----------------------------------------------------------------------------------------

theorem mem_sent {member : Nat} {effects : List Effect} {parcel : Parcel}
    : parcel ∈ sent member effects
      ↔ parcel.sender = member ∧ .send parcel.receiver parcel.votes ∈ effects := by
  unfold sent
  rw [List.mem_filterMap]
  constructor
  · rintro ⟨effect, inside, same⟩
    split at same <;> cases same
    exact ⟨rfl, inside⟩
  · rintro ⟨rfl, inside⟩
    exact ⟨_, inside, rfl⟩

/-- An answer is the decision of the addressee. It goes to a peer whose vote is in the bundle, and is
not counted in the decision.
-/
theorem Provokes.decision {members : List Member} {round : Round} {parcel answer : Parcel}
    (settled : Settled members round) (provokes : Provokes members round parcel answer)
    : ∃ member decision electorate, members[answer.sender]? = some member
        ∧ member.key = some parcel.receiver.key
        ∧ member.gate.book.decision round = some decision
        ∧ member.gate.electorate = some electorate ∧ answer.votes = decision.votes
        ∧ ∃ vote ∈ parcel.votes, (¬ ∃ counted ∈ decision.votes, counted.key = vote.key)
          ∧ electorate.peer? vote.key = some answer.receiver := by
  obtain ⟨ofRound, member⟩ := provokes
  unfold answers at member
  split at member
  · cases member
  · next receiver found =>
      split at member
      · cases member
      · next addressee place =>
          obtain ⟨own, sends⟩ := mem_sent.mp member
          have closed := settled addressee (List.mem_of_getElem? place)
          obtain ⟨decision, electorate, known, consulted, votes, lags⟩ :=
            Gate.send_of_closed ofRound closed sends
          have key : addressee.key = some parcel.receiver.key := by
            obtain ⟨within, addressed, -⟩ := List.findIdx?_eq_some_iff_getElem.mp found
            rw [List.getElem?_eq_getElem within] at place
            cases place
            exact of_decide_eq_true addressed
          exact ⟨addressee, decision, electorate, own ▸ place, key, known, consulted, votes,
            Gate.mem_laggards.mp lags⟩

/-- The peers that a member may answer. -/
def peersOf (electorate : Electorate) : List Peer :=
  electorate.primary.peers ++ (electorate.alternative.map Roster.peers).getD []

theorem mem_peersOf {electorate : Electorate} {key : PublicKey} {peer : Peer}
    (known : electorate.peer? key = some peer)
    : peer ∈ peersOf electorate := by
  unfold Electorate.peer? at known
  cases first : electorate.primary.peer? key with
  | some found =>
      rw [first] at known
      cases known
      exact List.mem_append_left _ (List.mem_of_find?_eq_some first)
  | none =>
      rw [first] at known
      obtain ⟨roster, named, found⟩ := Option.bind_eq_some_iff.mp known
      rw [peersOf, named]
      exact List.mem_append_right _ (List.mem_of_find?_eq_some found)

/-- The bundles that a member may send as answers: its decision, to each peer. -/
def repliesOf (round : Round) (index : Nat) (member : Member) : List Parcel :=
  (member.gate.book.decision round).toList.flatMap fun decision =>
    member.gate.electorate.toList.flatMap fun electorate =>
      (peersOf electorate).map fun peer => ⟨index, peer, decision.votes⟩

theorem mem_repliesOf {round : Round} {index : Nat} {member : Member} {parcel : Parcel}
    : parcel ∈ repliesOf round index member
      ↔ ∃ decision electorate, member.gate.book.decision round = some decision
        ∧ member.gate.electorate = some electorate
        ∧ ∃ peer ∈ peersOf electorate, ⟨index, peer, decision.votes⟩ = parcel := by
  simp [repliesOf, Option.mem_toList]

/-- Only finitely many answers are possible, since a member has one decision and finitely many peers.
-/
theorem finite_provoked {members : List Member} {round : Round} (settled : Settled members round)
    : {answer | ∃ parcel, Provokes members round parcel answer}.Finite := by
  let possible := members.zipIdx.flatMap fun entry => repliesOf round entry.2 entry.1
  refine (List.finite_toSet possible).subset ?_
  rintro answer ⟨parcel, provokes⟩
  obtain ⟨member, decision, electorate, place, -, known, consulted, votes, vote, -, -, peer⟩ :=
    provokes.decision settled
  refine List.mem_flatMap.mpr ⟨(member, answer.sender), List.mem_zipIdx_iff_getElem?.mpr place, ?_⟩
  exact mem_repliesOf.mpr
    ⟨decision, electorate, known, consulted, answer.receiver, mem_peersOf peer, votes ▸ rfl⟩

-----------------------------------------------------------------------------------------
-- Exchanges
-----------------------------------------------------------------------------------------

/-- A bundle that is handed over is replaced by the answers to it. -/
theorem Exchange.replaces {cluster next : Cluster} {round : Round}
    (settled : Settled cluster.members round) (exchange : Exchange round cluster next)
    : next.members = cluster.members
      ∧ ∃ parcel ∈ cluster.parcels, Bundle.round parcel.votes = .ok round
        ∧ (parcel :: next.parcels).Perm (cluster.parcels ++ answers cluster.members parcel) := by
  obtain ⟨underWay, ofRound, handed⟩ := exchange
  rw [hand?_of_settled settled underWay ofRound] at handed
  obtain ⟨_, -, rfl⟩ := Option.map_eq_some_iff.mp handed
  refine ⟨rfl, _, List.mem_of_getElem? underWay, ofRound, ?_⟩
  obtain ⟨within, rfl⟩ := List.getElem?_eq_some_iff.mp underWay
  rw [← List.cons_append]
  exact (List.getElem_cons_eraseIdx_perm within).append_right _

theorem addressee_of_provokes {cluster : Cluster} {round : Round} {parcel answer : Parcel}
    (provokes : Provokes cluster.members round parcel answer)
    : ∃ receiver, cluster.addressee? parcel.receiver.key = some receiver := by
  have member := provokes.2
  rw [answers_members] at member
  cases found : cluster.addressee? parcel.receiver.key with
  | none =>
      rw [found] at member
      cases member
  | some receiver => exact ⟨receiver, rfl⟩

/-- An answer comes under way when the bundle that provokes it is handed over. -/
theorem exists_exchange_of_provokes {cluster : Cluster} {round : Round} {parcel answer : Parcel}
    (settled : Settled cluster.members round) (underWay : parcel ∈ cluster.parcels)
    (provokes : Provokes cluster.members round parcel answer)
    : ∃ next, Exchange round cluster next ∧ next.members = cluster.members
        ∧ answer ∈ next.parcels := by
  obtain ⟨index, place⟩ := List.getElem?_of_mem underWay
  obtain ⟨receiver, addressed⟩ := addressee_of_provokes provokes
  have handed := hand?_of_settled settled place provokes.1
  rw [addressed, Option.map_some] at handed
  exact ⟨_, .hand place provokes.1 handed, rfl, List.mem_append_right _ provokes.2⟩

/-- If an exchange ends, so do the ways from each bundle under way to answers of answers. -/
theorem acc_provokes {cluster : Cluster} {round : Round} (acc : Acc (swap (Exchange round)) cluster)
    (settled : Settled cluster.members round)
    : ∀ parcel ∈ cluster.parcels, Acc (swap (Provokes cluster.members round)) parcel := by
  induction acc with
  | intro cluster _ ih =>
      intro parcel underWay
      refine .intro parcel fun answer provokes => ?_
      obtain ⟨next, exchange, same, member⟩ :=
        exists_exchange_of_provokes settled underWay provokes
      exact same ▸ ih next exchange (same ▸ settled) answer member

/-- One bundle provokes another, and the ways on from the first one end. -/
def Calmer (members : List Member) (round : Round) (answer parcel : Parcel) : Prop :=
  Provokes members round parcel answer ∧ Acc (swap (Provokes members round)) parcel

instance (members : List Member) (round : Round) : Std.Irrefl (Calmer members round) where
  irrefl _ calmer := not_transGen_of_acc calmer.2 (.single calmer.1)

/-- Along an exchange the bundles under way get calmer, as an order of multisets. -/
theorem Exchange.calmer {cluster next : Cluster} {round : Round}
    (settled : Settled cluster.members round)
    (calm : ∀ parcel ∈ cluster.parcels, Acc (swap (Provokes cluster.members round)) parcel)
    (exchange : Exchange round cluster next)
    : CutExpand (Calmer cluster.members round) next.parcels cluster.parcels
      ∧ next.members = cluster.members
      ∧ ∀ parcel ∈ next.parcels, Acc (swap (Provokes cluster.members round)) parcel := by
  obtain ⟨same, parcel, underWay, ofRound, perm⟩ := exchange.replaces settled
  have provoked (answer : Parcel) (member : answer ∈ answers cluster.members parcel)
      : Provokes cluster.members round parcel answer :=
    ⟨ofRound, member⟩
  have calm_parcel := calm parcel underWay
  refine ⟨⟨answers cluster.members parcel, parcel, ?_, ?_⟩, same, ?_⟩
  · exact fun answer member => ⟨provoked answer member, calm_parcel⟩
  · rw [add_comm, Multiset.singleton_add, Multiset.cons_coe, Multiset.coe_add]
    exact Multiset.coe_eq_coe.mpr perm
  · intro later member
    rcases List.mem_append.mp (perm.subset (List.mem_cons_of_mem _ member)) with old | new
    · exact calm later old
    · exact calm_parcel.inv (provoked later new)

theorem acc_calmer {members : List Member} {round : Round} {parcels : List Parcel}
    (calm : ∀ parcel ∈ parcels, Acc (swap (Provokes members round)) parcel)
    : Acc (CutExpand (Calmer members round)) parcels := by
  refine acc_of_singleton fun parcel member => Acc.cutExpand ?_
  exact Subrelation.accessible (fun calmer => calmer.1) (calm parcel member)

/-- If the ways from all bundles under way end, so does the exchange. -/
theorem acc_exchange {cluster : Cluster} {round : Round}
    (settled : Settled cluster.members round)
    (calm : ∀ parcel ∈ cluster.parcels, Acc (swap (Provokes cluster.members round)) parcel)
    : Acc (swap (Exchange round)) cluster := by
  have general {members : List Member} {parcels : Multiset Parcel}
      (ends : Acc (CutExpand (Calmer members round)) parcels) (settled : Settled members round)
      : ∀ cluster : Cluster, cluster.members = members → cluster.parcels = parcels →
          (∀ parcel ∈ cluster.parcels, Acc (swap (Provokes members round)) parcel) →
          Acc (swap (Exchange round)) cluster := by
    induction ends with
    | intro _ _ ih =>
        rintro cluster rfl rfl calm
        refine .intro cluster fun next exchange => ?_
        obtain ⟨calmer, same, calm_next⟩ := exchange.calmer settled calm
        exact ih next.parcels calmer next same rfl calm_next
  exact general (acc_calmer calm) settled cluster rfl rfl calm

/-- No exchange among settled members changes one of them. -/
theorem members_of_exchanges {cluster later : Cluster} {round : Round}
    (settled : Settled cluster.members round)
    (exchanges : ReflTransGen (Exchange round) cluster later)
    : later.members = cluster.members := by
  induction exchanges with
  | refl => rfl
  | tail _ exchange ih => exact (exchange.replaces (ih ▸ settled)).1.trans ih

/-- An exchange that ends does not come back to the bundles that were under way. -/
theorem not_perm_of_exchanges {cluster later : Cluster} {round : Round}
    (settled : Settled cluster.members round)
    (calm : ∀ parcel ∈ cluster.parcels, Acc (swap (Provokes cluster.members round)) parcel)
    (exchanges : TransGen (Exchange round) cluster later)
    : ¬ later.parcels.Perm cluster.parcels := by
  have path
      : TransGen (swap (CutExpand (Calmer cluster.members round))) cluster.parcels later.parcels
        ∧ later.members = cluster.members
        ∧ ∀ parcel ∈ later.parcels, Acc (swap (Provokes cluster.members round)) parcel := by
    induction exchanges with
    | single exchange =>
        obtain ⟨calmer, rest⟩ := exchange.calmer settled calm
        exact ⟨.single calmer, rest⟩
    | tail _ exchange ih =>
        obtain ⟨path, same, calm⟩ := ih
        obtain ⟨calmer, same', calm'⟩ := exchange.calmer (same ▸ settled) (same ▸ calm)
        rw [same] at calmer same' calm'
        exact ⟨path.tail calmer, same', calm'⟩
  intro perm
  rw [Multiset.coe_eq_coe.mpr perm] at path
  exact not_transGen_of_acc (acc_calmer calm) path.1

/-- Among members that have closed the round, an exchange of bundles of the round changes no member.
It ends, in whatever order the bundles are handed over, just if no bundle under way leads to a ring
of answers; and then it does not come back to the same bundles either.
-/
theorem exchange_ends_iff_no_ring {cluster : Cluster} {round : Round}
    (settled : Settled cluster.members round)
    : let Calm := ∀ parcel ∈ cluster.parcels, ∀ last,
        ReflTransGen (Provokes cluster.members round) parcel last →
          ¬ TransGen (Provokes cluster.members round) last last
      (∀ later, ReflTransGen (Exchange round) cluster later → later.members = cluster.members)
      ∧ (Acc (swap (Exchange round)) cluster ↔ Calm)
      ∧ (Calm → ∀ later, TransGen (Exchange round) cluster later →
          ¬ later.parcels.Perm cluster.parcels) := by
  intro Calm
  have finite := finite_provoked settled
  have calm_iff
      : (∀ parcel ∈ cluster.parcels, Acc (swap (Provokes cluster.members round)) parcel) ↔ Calm :=
    forall₂_congr fun _ _ => acc_iff_no_ring finite
  refine ⟨fun later => members_of_exchanges settled, ?_, fun calm later => ?_⟩
  · exact ⟨fun ends => calm_iff.mp (acc_provokes ends settled),
      fun calm => acc_exchange settled (calm_iff.mpr calm)⟩
  · exact not_perm_of_exchanges settled (calm_iff.mpr calm)

-----------------------------------------------------------------------------------------
-- A ring of answers
-----------------------------------------------------------------------------------------

/-- What can happen in a cluster. -/
inductive Move where
  | vote (member : Nat) (candidate : Candidate) (electorate : Electorate)
  | hand (index : Nat)
  | lose (index : Nat)

def move? (cluster : Cluster) : Move → Option Cluster
  | .vote member candidate electorate =>
      (cluster.act member (Gate.vote · candidate electorate)).map fun acted => acted.2.1
  | .hand index => cluster.hand? index
  | .lose index => (cluster.take? index).map Prod.snd

/-- Does some moves in order. -/
def play? (cluster : Cluster) (moves : List Move) : Option Cluster :=
  moves.foldlM move? cluster

/-- A cluster of new gates. -/
def fresh (nodes : List (Gate.Settings × PublicKey)) (window : UInt64) : Cluster where
  members := nodes.map fun node => ⟨node.1, some node.2, .initial window⟩
  parcels := []
  agenda := .empty
  delay := none

/-- Four nodes vote for one block. Each of the first three commits without the vote of the next one
of them, the last one without that of the third. Of the other bundles only the vote of the second
node for the first one arrives, which answers it.
-/
def lateVote : List Move :=
  [.vote 0 (.numbered 1) ⟨.four, none⟩, .vote 1 (.numbered 1) ⟨.four, none⟩,
    .vote 2 (.numbered 1) ⟨.four, none⟩, .vote 3 (.numbered 1) ⟨.four, none⟩,
    .hand 9, .hand 6, .hand 8, .hand 0, .hand 7, .hand 3, .hand 1, .hand 2,
    .lose 0, .lose 1, .lose 1, .hand 0]

def fourNodes : List (Gate.Settings × PublicKey) :=
  [(.numbered 1, .numbered 1), (.numbered 2, .numbered 2), (.numbered 3, .numbered 3),
    (.numbered 4, .numbered 4)]

/-- The cluster when the late vote has been answered. -/
def ringed : Cluster :=
  ((fresh fourNodes 10).play? lateVote).get (by decide)

theorem play_lateVote : (fresh fourNodes 10).play? lateVote = some ringed :=
  (Option.some_get _).symm

theorem settled_ringed : Settled ringed.members ⟨5, 0⟩ := by
  decide

/-- A member of the ring sends its decision to the next one. -/
def ringParcel (sender : Nat) (receiver : Peer) (keys : List UInt8) : Parcel :=
  ⟨sender, receiver, keys.map (.numbered · (.numbered 1))⟩

def toSecond : Parcel := ringParcel 0 ⟨"b", .numbered 2⟩ [1, 4, 3]

def toThird : Parcel := ringParcel 1 ⟨"c", .numbered 3⟩ [2, 4, 1]

def toFirst : Parcel := ringParcel 2 ⟨"a", .numbered 1⟩ [3, 4, 2]

/-- A bundle of the round has one answer. -/
def Echoes (members : List Member) (round : Round) (parcel answer : Parcel) : Prop :=
  Bundle.round parcel.votes = .ok round ∧ answers members parcel = [answer]

instance (members : List Member) (round : Round) (parcel answer : Parcel)
    : Decidable (Echoes members round parcel answer) :=
  inferInstanceAs (Decidable (_ ∧ _))

theorem Echoes.provokes {members : List Member} {round : Round} {parcel answer : Parcel}
    (echoes : Echoes members round parcel answer)
    : Provokes members round parcel answer :=
  ⟨echoes.1, echoes.2 ▸ List.mem_singleton_self answer⟩

theorem echoes_around : TransGen (Echoes ringed.members ⟨5, 0⟩) toSecond toSecond :=
  calc
    TransGen (Echoes ringed.members ⟨5, 0⟩) toSecond toThird := .single (by decide)
    TransGen (Echoes ringed.members ⟨5, 0⟩) _ toFirst := .single (by decide)
    TransGen (Echoes ringed.members ⟨5, 0⟩) _ toSecond := .single (by decide)

/-- The cluster when the given bundle alone is under way. -/
def carrying (cluster : Cluster) (parcel : Parcel) : Cluster :=
  { cluster with parcels := [parcel] }

/-- A bundle on its own that has one answer is replaced by it. -/
theorem exchange_of_echoes {cluster : Cluster} {round : Round}
    (settled : Settled cluster.members round) {parcel answer : Parcel}
    (echoes : Echoes cluster.members round parcel answer)
    : Exchange round (cluster.carrying parcel) (cluster.carrying answer) := by
  have provokes : Provokes (cluster.carrying parcel).members round parcel answer :=
    echoes.provokes
  obtain ⟨ofRound, answered⟩ := echoes
  obtain ⟨receiver, addressed⟩ := addressee_of_provokes provokes
  have underWay : (cluster.carrying parcel).parcels[0]? = some parcel := rfl
  have handed := hand?_of_settled (by exact settled) underWay ofRound
  rw [addressed, show answers (cluster.carrying parcel).members parcel = [answer] from answered]
    at handed
  exact .hand underWay ofRound handed

/-- Around the ring the bundle under way comes back. -/
theorem ringed_comes_back : TransGen (Exchange ⟨5, 0⟩) ringed ringed := by
  have alone : ringed = ringed.carrying toSecond := by
    rw [carrying, ← show ringed.parcels = [toSecond] by decide]
  rw [alone]
  exact echoes_around.lift ringed.carrying fun _ _ => exchange_of_echoes settled_ringed

/-- The members hold the decisions of the round under one order. -/
theorem shared_ringed
    : ∀ member ∈ ringed.members,
        member.gate.electorate = some ⟨.four, none⟩ ∧ (member.gate.book.poll ⟨5, 0⟩).Frozen := by
  have same
      : ringed.members.map (fun member => member.gate.electorate)
        = List.replicate 4 (some ⟨.four, none⟩) :=
    rfl
  have frozen : ∀ member ∈ ringed.members, (member.gate.book.poll ⟨5, 0⟩).Frozen := by
    decide
  refine fun member inside => ⟨?_, frozen member inside⟩
  exact List.eq_of_mem_replicate (same ▸ List.mem_map_of_mem inside)

/-- The exchange that the late vote has set off does not end. -/
theorem not_exchange_ends_of_ringed
    : Settled ringed.members ⟨5, 0⟩ ∧ ¬ Acc (swap (Exchange ⟨5, 0⟩)) ringed := by
  refine ⟨settled_ringed, fun ends => ?_⟩
  obtain ⟨-, ends_iff, -⟩ := exchange_ends_iff_no_ring settled_ringed
  have underWay : toSecond ∈ ringed.parcels := by decide
  have around : TransGen (Provokes ringed.members ⟨5, 0⟩) toSecond toSecond :=
    echoes_around.lift id fun _ _ => Echoes.provokes
  exact ends_iff.mp ends toSecond underWay toSecond .refl around

/-- Members that have closed a round under one order may answer each other for ever. -/
theorem not_exchange_dies_out
    : ¬ ∀ (nodes : List (Gate.Settings × PublicKey)) (window : UInt64) (moves : List Move)
        (cluster : Cluster) (roster : Roster) (round : Round),
        (fresh nodes window).play? moves = some cluster →
        (∀ member ∈ cluster.members,
          member.gate.electorate = some ⟨roster, none⟩
            ∧ (member.gate.book.poll round).Frozen) →
        ∀ later, TransGen (Exchange round) cluster later →
          ¬ (later.members = cluster.members ∧ later.parcels.Perm cluster.parcels) := by
  intro dies_out
  exact dies_out fourNodes 10 lateVote ringed .four ⟨5, 0⟩ play_lateVote shared_ringed ringed
    ringed_comes_back ⟨rfl, .rfl⟩

end Cluster

end Quorum
