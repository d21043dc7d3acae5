import Mathlib
import Anchor.Eth.ClusterStatus
import Anchor.Library.Bitfield
import Anchor.Library.Machine
import Anchor.Library.RefCount
import Anchor.PeerManager.Bookkeeping
import Anchor.SubnetService.Subscriptions

/-!
# Topic events in the network

The network subscribes to the topics it is told to and counts how many topics use a
subnet.  With the first of them the subnet becomes a needed one, with the last one it is
needed no more; the record of the node and its metadata announce the needed subnets.
-/

namespace Anchor

open Ssz

/-! ## Metadata -/

structure NodeMetadata where
  subnets : Vector (BitVec 8) 16

namespace NodeMetadata

def new : NodeMetadata := ⟨Vector.replicate 16 0⟩

def announces (m : NodeMetadata) (subnet : ℕ) : Bool :=
  if h : subnet / 8 < 16 then (m.subnets.get ⟨subnet / 8, h⟩).getLsbD (subnet % 8) else false

/-- Fails for a subnet that has no byte. -/
def setSubscribed (m : NodeMetadata) (subnet : ℕ) (subscribed : Bool) : Option NodeMetadata :=
  if h : subnet / 8 < 16 then
    let byte := m.subnets.get ⟨subnet / 8, h⟩
    let mask := 1#8 <<< (subnet % 8)
    let byte' := if subscribed then byte ||| mask else byte &&& ~~~mask
    some ⟨m.subnets.set (subnet / 8) byte' h⟩
  else none

theorem announces_new (subnet : ℕ) : new.announces subnet = false := by
  unfold announces new
  split_ifs with h
  · simp [Vector.get_eq_getElem]
  · rfl

theorem getLsbD_mask (byte : BitVec 8) {i j : ℕ} (hi : i < 8) (hj : j < 8) (subscribed : Bool) :
    (if subscribed then byte ||| 1#8 <<< i else byte &&& ~~~(1#8 <<< i)).getLsbD j =
      if j = i then subscribed else byte.getLsbD j := by
  have hmask : (1#8 <<< i).getLsbD j = decide (j = i) := by
    rw [BitVec.getLsbD_shiftLeft, BitVec.getLsbD_one, Bool.eq_iff_iff]
    simp only [Nat.ofNat_pos, decide_true, Bool.true_and, Bool.and_eq_true, decide_eq_true_eq,
      Bool.not_eq_true', decide_eq_false_iff_not, not_lt]
    omega
  cases subscribed with
  | true =>
    rw [if_pos rfl, BitVec.getLsbD_or, hmask]
    split_ifs with h <;> simp [h]
  | false =>
    rw [if_neg Bool.false_ne_true, BitVec.getLsbD_and, BitVec.getLsbD_not, hmask]
    split_ifs with h <;> simp [h, hj]

theorem exists_setSubscribed (m : NodeMetadata) {subnet : ℕ} (hsubnet : subnet < subnetCount)
    (subscribed : Bool) : ∃ m', m.setSubscribed subnet subscribed = some m' ∧
      ∀ s, m'.announces s = if s = subnet then subscribed else m.announces s := by
  have h : subnet / 8 < 16 := by
    simp only [subnetCount] at hsubnet
    omega
  refine ⟨_, dif_pos h, fun s => ?_⟩
  unfold announces
  by_cases hs : s / 8 < 16
  · rw [dif_pos hs, dif_pos hs]
    by_cases hbyte : subnet / 8 = s / 8
    · have hget : ∀ x, (m.subnets.set (subnet / 8) x h).get ⟨s / 8, hs⟩ = x := by
        intro x
        simp [Vector.get_eq_getElem, hbyte]
      have hsame : m.subnets.get ⟨subnet / 8, h⟩ = m.subnets.get ⟨s / 8, hs⟩ := by
        simp only [hbyte]
      rw [hget, getLsbD_mask _ (Nat.mod_lt _ (by decide)) (Nat.mod_lt _ (by decide)), hsame]
      exact if_congr (by omega) rfl rfl
    · have hne : s ≠ subnet := by
        rintro rfl
        exact hbyte rfl
      rw [if_neg hne]
      simp [Vector.get_eq_getElem, hbyte]
  · rw [dif_neg hs, dif_neg hs, if_neg]
    rintro rfl
    exact hs h

end NodeMetadata

/-! ## The network -/

/-- The topics that gossipsub is subscribed to, the counts, and where the subnets are announced. -/
structure GossipNetwork (Peer : Type) where
  subscribed : Finset String
  subnetSubscriptionCounts : ℕ → Option ℕ
  peerManager : PeerManager Peer
  enr : Bitfield 128
  metadata : NodeMetadata
  isDynamicTargetPeers : Bool

/-- What the network handles: the events of the subnet service, and all that only changes what
is known of the connections. -/
inductive NetworkEvent (Peer : Type) where
  | topicEvent (event : TopicEvent)
  | connections (connectionManager : ConnectionManager Peer)

def NetworkEvent.topicEvent? {Peer : Type} : NetworkEvent Peer → Option TopicEvent
  | topicEvent event => some event
  | connections _ => none

namespace GossipNetwork

variable {Peer : Type}

def new (targetPeers : Option ℕ) (isDynamicTargetPeers : Bool) : GossipNetwork Peer :=
  ⟨∅, fun _ => none, .new targetPeers, .zero, .new, isDynamicTargetPeers⟩

def updateSubnetMembership (net : GossipNetwork Peer) (subnet : ℕ) (subscribed : Bool) :
    GossipNetwork Peer :=
  { net with
    enr := net.enr.set subnet subscribed
    metadata := (net.metadata.setSubscribed subnet subscribed).getD net.metadata }

def join (net : GossipNetwork Peer) (subnet : ℕ) : GossipNetwork Peer :=
  updateSubnetMembership
    { net with peerManager := net.peerManager.joinSubnet subnet net.isDynamicTargetPeers }
    subnet true

def leave (net : GossipNetwork Peer) (subnet : ℕ) : GossipNetwork Peer :=
  updateSubnetMembership
    { net with peerManager := net.peerManager.leaveSubnet subnet net.isDynamicTargetPeers }
    subnet false

/-- Subscribing to a topic succeeds. -/
def onTopicEvent (net : GossipNetwork Peer) : TopicEvent → GossipNetwork Peer
  | .subscribe topic subnet =>
    let net := { net with subscribed := insert topic net.subscribed }
    let isFirst := (net.subnetSubscriptionCounts subnet).isNone
    let net := if isFirst then net.join subnet else net
    { net with
      subnetSubscriptionCounts := RefCount.acquire net.subnetSubscriptionCounts subnet }
  | .unsubscribe topic subnet =>
    let net := { net with subscribed := net.subscribed.erase topic }
    let (counts, shouldLeave) := RefCount.release net.subnetSubscriptionCounts subnet
    let net := { net with subnetSubscriptionCounts := counts }
    if shouldLeave then net.leave subnet else net

def handle (net : GossipNetwork Peer) : NetworkEvent Peer → GossipNetwork Peer
  | .topicEvent event => net.onTopicEvent event
  | .connections connectionManager =>
    { net with peerManager := { net.peerManager with connectionManager } }

/-- No topic is subscribed to twice, none is left that is not subscribed to. -/
def Due (net : GossipNetwork Peer) : NetworkEvent Peer → Prop
  | .topicEvent (.subscribe topic _) => topic ∉ net.subscribed
  | .topicEvent (.unsubscribe topic _) => topic ∈ net.subscribed
  | .connections _ => True

/-! ## Announced subnets -/

structure Announces (net : GossipNetwork Peer) (used : Finset ℕ) : Prop where
  needed : net.peerManager.neededSubnets = used
  enr : ∀ s, net.enr.get s = true ↔ s ∈ used
  metadata : ∀ s, net.metadata.announces s = true ↔ s ∈ used

variable {net : GossipNetwork Peer} {used : Finset ℕ} {subnet : ℕ}

theorem Announces.update (h : net.Announces used) (hsubnet : subnet < subnetCount)
    {subscribed : Bool} {used' : Finset ℕ} {peerManager : PeerManager Peer}
    (hneeded : peerManager.neededSubnets = used')
    (hused : ∀ s, s ∈ used' ↔ if s = subnet then subscribed = true else s ∈ used) :
    (updateSubnetMembership { net with peerManager } subnet subscribed).Announces used' := by
  have hbit : subnet < 128 := hsubnet
  obtain ⟨metadata, hset, hmetadata⟩ := net.metadata.exists_setSubscribed hsubnet subscribed
  refine ⟨hneeded, fun s => ?_, fun s => ?_⟩
  · change (net.enr.set subnet subscribed).get s = true ↔ _
    rw [Bitfield.get_set _ hbit, hused]
    split_ifs with hs
    · rfl
    · exact h.enr s
  · change ((net.metadata.setSubscribed subnet subscribed).getD net.metadata).announces s = true ↔ _
    rw [hset, Option.getD_some, hmetadata, hused]
    split_ifs with hs
    · rfl
    · exact h.metadata s

theorem Announces.join (h : net.Announces used) (hsubnet : subnet < subnetCount) :
    (net.join subnet).Announces (insert subnet used) := by
  refine h.update hsubnet (congrArg (insert subnet) h.needed) fun s => ?_
  rw [Finset.mem_insert]
  split_ifs with hs <;> simp [hs]

theorem Announces.leave (h : net.Announces used) (hsubnet : subnet < subnetCount) :
    (net.leave subnet).Announces (used.erase subnet) := by
  refine h.update hsubnet (congrArg (Finset.erase · subnet) h.needed) fun s => ?_
  rw [Finset.mem_erase]
  split_ifs with hs <;> simp [hs]

/-! ## What the events of the service do -/

variable (service : SubscribingService)

/-- The topics are those of the subnets held, which are counted, needed and announced. -/
structure Reflects (net : GossipNetwork Peer) (held : Finset (Fork × ℕ)) : Prop where
  bounded : ∀ p ∈ held, p.2 < subnetCount
  subscribed : ∀ topic, topic ∈ net.subscribed ↔ ∃ p ∈ held, topic = service.topic p.1 p.2
  tallies : RefCount.Tallies held net.subnetSubscriptionCounts
  announces : net.Announces (held.image Prod.snd)

variable {service} {held held' : Finset (Fork × ℕ)} {fork : Fork}

theorem reflects_new (targetPeers : Option ℕ) (isDynamicTargetPeers : Bool) :
    (new targetPeers isDynamicTargetPeers : GossipNetwork Peer).Reflects service ∅ where
  bounded := by simp
  subscribed := by simp [new]
  tallies := RefCount.tallies_empty
  announces := by
    refine ⟨by simp [new, PeerManager.new], fun s => ?_, fun s => ?_⟩
    · simp [new]
    · simp [new, NodeMetadata.announces_new]

theorem Reflects.topic_mem_iff (h : net.Reflects service held) :
    service.topic fork subnet ∈ net.subscribed ↔ (fork, subnet) ∈ held := by
  rw [h.subscribed]
  constructor
  · rintro ⟨⟨fork', subnet'⟩, hmem, htopic⟩
    obtain ⟨rfl, rfl⟩ := createTopic_inj.mp htopic
    exact hmem
  · intro hmem
    exact ⟨(fork, subnet), hmem, rfl⟩

theorem Reflects.subscribe (h : net.Reflects service held) (hbound : subnet < subnetCount)
    (habsent : (fork, subnet) ∉ held) :
    (net.onTopicEvent (.subscribe (service.topic fork subnet) subnet)).Reflects
      service (insert (fork, subnet) held) where
  bounded := by
    intro p hp
    rcases Finset.mem_insert.mp hp with rfl | hp
    · exact hbound
    · exact h.bounded p hp
  subscribed := by
    intro topic
    have hsubscribed : (net.onTopicEvent
        (.subscribe (service.topic fork subnet) subnet)).subscribed =
          insert (service.topic fork subnet) net.subscribed := by
      simp only [onTopicEvent]
      split_ifs <;> rfl
    rw [hsubscribed, Finset.mem_insert, h.subscribed, Finset.exists_mem_insert]
  tallies := by
    have hcounts : (net.onTopicEvent
        (.subscribe (service.topic fork subnet) subnet)).subnetSubscriptionCounts =
          RefCount.acquire net.subnetSubscriptionCounts subnet := by
      simp only [onTopicEvent]
      split_ifs <;> rfl
    rw [hcounts]
    exact h.tallies.acquire habsent
  announces := by
    rw [Finset.image_insert]
    simp only [onTopicEvent, Option.isNone_iff_eq_none, h.tallies.eq_none_iff]
    by_cases hused : subnet ∈ held.image Prod.snd
    · rw [if_neg (not_not.mpr hused), Finset.insert_eq_of_mem hused]
      exact ⟨h.announces.needed, h.announces.enr, h.announces.metadata⟩
    · rw [if_pos hused]
      have hjoin := h.announces.join hbound
      exact ⟨hjoin.needed, hjoin.enr, hjoin.metadata⟩

theorem Reflects.unsubscribe (h : net.Reflects service held) (hpresent : (fork, subnet) ∈ held) :
    (net.onTopicEvent (.unsubscribe (service.topic fork subnet) subnet)).Reflects
      service (held.erase (fork, subnet)) where
  bounded p hp := h.bounded p (Finset.mem_of_mem_erase hp)
  subscribed := by
    intro topic
    have hsubscribed : (net.onTopicEvent
        (.unsubscribe (service.topic fork subnet) subnet)).subscribed =
          net.subscribed.erase (service.topic fork subnet) := by
      simp only [onTopicEvent]
      split_ifs <;> rfl
    rw [hsubscribed, Finset.mem_erase, h.subscribed]
    constructor
    · rintro ⟨hne, p, hp, rfl⟩
      refine ⟨p, Finset.mem_erase.mpr ⟨?_, hp⟩, rfl⟩
      rintro rfl
      exact hne rfl
    · rintro ⟨⟨fork', subnet'⟩, hp, rfl⟩
      obtain ⟨hne, hmem⟩ := Finset.mem_erase.mp hp
      refine ⟨fun heq => ?_, (fork', subnet'), hmem, rfl⟩
      obtain ⟨rfl, rfl⟩ := createTopic_inj.mp heq
      exact hne rfl
  tallies := by
    have hcounts : (net.onTopicEvent (.unsubscribe (service.topic fork subnet) subnet :
        TopicEvent)).subnetSubscriptionCounts =
          (RefCount.release net.subnetSubscriptionCounts subnet).1 := by
      simp only [onTopicEvent]
      split_ifs <;> rfl
    rw [hcounts]
    exact h.tallies.release hpresent
  announces := by
    have himage := h.tallies.image_erase hpresent
    simp only [onTopicEvent]
    split_ifs at himage ⊢ with hleave
    · have hleft := h.announces.leave (h.bounded _ hpresent)
      rw [← himage] at hleft
      exact ⟨hleft.needed, hleft.enr, hleft.metadata⟩
    · have hsame := h.announces
      rw [← himage] at hsame
      exact ⟨hsame.needed, hsame.enr, hsame.metadata⟩

theorem Reflects.run {sent : List (TopicEvent)} {events : List (NetworkEvent Peer)}
    (h : net.Reflects service held) (hemits : Emits service held sent held')
    (hevents : events.filterMap NetworkEvent.topicEvent? = sent) :
    Machine.Steps handle Due net events ∧
      (Machine.run handle net events).Reflects service held' := by
  induction events generalizing net held sent with
  | nil =>
    subst hevents
    cases hemits
    exact ⟨trivial, h⟩
  | cons event events ih =>
    cases event with
    | connections connectionManager =>
      have hsame : (net.handle (.connections connectionManager :
          NetworkEvent Peer)).Reflects service held :=
        ⟨h.bounded, h.subscribed, h.tallies, h.announces.needed, h.announces.enr,
          h.announces.metadata⟩
      obtain ⟨hsteps, hrun⟩ := ih hsame hemits hevents
      exact ⟨⟨trivial, hsteps⟩, hrun⟩
    | topicEvent event =>
      subst hevents
      change Emits service held (event :: events.filterMap NetworkEvent.topicEvent?) held'
        at hemits
      cases hemits with
      | subscribe hbound habsent hrest =>
        obtain ⟨hsteps, hrun⟩ := ih (h.subscribe hbound habsent) hrest rfl
        exact ⟨⟨fun hmem => habsent (h.topic_mem_iff.mp hmem), hsteps⟩, hrun⟩
      | unsubscribe hpresent hrest =>
        obtain ⟨hsteps, hrun⟩ := ih (h.unsubscribe hpresent) hrest rfl
        exact ⟨⟨h.topic_mem_iff.mpr hpresent, hsteps⟩, hrun⟩

end GossipNetwork

/-! ## The service and the network together -/

/-- Whatever the changes of the database and of the lifecycle, once the network has consumed the
events of the service, it is subscribed to the topics of the target subnets of the forks tracked;
no topic was subscribed to twice or left when absent; and a subnet is needed and announced exactly
if a topic of some fork uses it. -/
theorem subscriptions_accounted {C Peer : Type} (service : SubscribingService)
    (lifecycle : ForkLifecycle) (database : Database.NetworkState C) (order : IterationOrder)
    (inputs : List (ServiceInput C)) (targetPeers : Option ℕ) (isDynamicTargetPeers : Bool)
    (events : List (NetworkEvent Peer)) :
    let w := Machine.run (ServiceRun.step service)
      (ServiceRun.start service lifecycle database order) inputs
    let net := Machine.run GossipNetwork.handle (.new targetPeers isDynamicTargetPeers) events
    events.filterMap NetworkEvent.topicEvent? = w.sent →
      (∀ target : Fork → Finset ℕ,
        (∀ fork ∈ (ServiceInput.lastLifecycle lifecycle inputs).relevantForks,
          service.Targets (ServiceInput.lastDatabase database inputs) fork (target fork)) →
        ∀ topic, topic ∈ net.subscribed ↔
          ∃ fork ∈ (ServiceInput.lastLifecycle lifecycle inputs).relevantForks,
            ∃ subnet ∈ target fork,
            topic = service.topic fork subnet) ∧
      Machine.Steps GossipNetwork.handle GossipNetwork.Due
        (.new targetPeers isDynamicTargetPeers) events ∧
      ∀ subnet,
        (subnet ∈ net.peerManager.neededSubnets ↔
          ∃ fork, service.topic fork subnet ∈ net.subscribed) ∧
        (net.enr.get subnet = true ↔ ∃ fork, service.topic fork subnet ∈ net.subscribed) ∧
        (net.metadata.announces subnet = true ↔
          ∃ fork, service.topic fork subnet ∈ net.subscribed) := by
  intro w net hevents
  have hw : ServiceRun.Consistent service _ _ w :=
    ServiceRun.consistent_run lifecycle database order inputs
  obtain ⟨hsteps, hnet⟩ :=
    (GossipNetwork.reflects_new targetPeers isDynamicTargetPeers).run hw.emits hevents
  refine ⟨fun target htarget topic => ?_, hsteps, fun subnet => ?_⟩
  · rw [hnet.subscribed]
    constructor
    · rintro ⟨⟨fork, subnet⟩, hmem, htopic⟩
      rw [ServiceState.mem_held] at hmem
      have htracked : fork ∈ w.state.tracked := by
        by_contra hnot
        rw [ServiceState.subnets_of_not_tracked hnot] at hmem
        exact Finset.notMem_empty subnet hmem
      have hfork := (hw.tracks fork).mp htracked
      rw [hw.targets fork htracked _ (htarget fork hfork)] at hmem
      exact ⟨fork, hfork, subnet, hmem, htopic⟩
    · rintro ⟨fork, hfork, subnet, hmem, htopic⟩
      refine ⟨(fork, subnet), ServiceState.mem_held.mpr ?_, htopic⟩
      rwa [hw.targets fork ((hw.tracks fork).mpr hfork) _ (htarget fork hfork)]
  · have hused : subnet ∈ w.state.held.image Prod.snd ↔
        ∃ fork, service.topic fork subnet ∈ net.subscribed := by
      rw [exists_congr fun fork => hnet.topic_mem_iff]
      simp
    refine ⟨?_, ?_, ?_⟩
    · rw [hnet.announces.needed, hused]
    · rw [hnet.announces.enr, hused]
    · rw [hnet.announces.metadata, hused]

namespace Sample

theorem insertionSort_eq_of_perm {α : Type} [LinearOrder α] (l l' : List α) (h : l.Perm l') :
    l.insertionSort (· ≤ ·) = l'.insertionSort (· ≤ ·) :=
  List.Perm.eq_of_pairwise' (List.pairwise_insertionSort _ _) (List.pairwise_insertionSort _ _)
    ((List.perm_insertionSort _ l).trans (h.trans (List.perm_insertionSort _ l').symm))

def sortedList {α : Type} [LinearOrder α] (s : Finset α) : List α :=
  Quot.liftOn s.val (fun l => l.insertionSort (· ≤ ·)) insertionSort_eq_of_perm

theorem sortedList_perm {α : Type} [LinearOrder α] (s : Finset α) :
    (sortedList s : Multiset α) = s.val := by
  obtain ⟨⟨l⟩, hl⟩ := s
  exact Quot.sound (List.perm_insertionSort _ l)

def sortedWalk (α : Type) [LinearOrder α] : Walk α where
  list := sortedList
  nodup s := by
    rw [← Multiset.coe_nodup, sortedList_perm]
    exact s.nodup
  mem_iff s x := by
    rw [← Multiset.mem_coe, sortedList_perm]
    exact Iff.rfl

def sortedOrder : IterationOrder := ⟨sortedWalk Fork, fun _ => sortedWalk ℕ⟩

def subscribingService : SubscribingService where
  sha256 := firstByte
  forkSchedule := chain.forkSchedule
  slotsPerEpoch := 32
  networkName := "mainnet"
  subscribeAllSubnets := false

def forkConfig (fork : Fork) : ForkConfig := ⟨fork, 0, ⟨[0, 0, 3, 1], rfl⟩⟩

/-- During the warm-up the committee of the own cluster changes, and with it the subnet. -/
def forkTransition : List (ServiceInput ℕ) :=
  let database := subnetState (subnetCluster members)
  let database' := subnetState (subnetCluster ⟨[⟨2⟩, ⟨3⟩, ⟨4⟩, ⟨5⟩], by decide⟩)
  [.lifecycleChanged (.warmUp (forkConfig .alan) (forkConfig .boole)) database sortedOrder,
    .databaseChanged database' sortedOrder,
    .lifecycleChanged (.gracePeriod (forkConfig .boole) (forkConfig .alan)) database' sortedOrder,
    .lifecycleChanged (.normal (forkConfig .boole)) database' sortedOrder]

def forkTransitionRun : ServiceRun :=
  Machine.run (ServiceRun.step subscribingService)
    (ServiceRun.start subscribingService (.normal (forkConfig .alan))
      (subnetState (subnetCluster members)) sortedOrder) forkTransition

theorem subscriptions_accounted_transition :
    forkTransitionRun.sent = [.subscribe "ssv.v2.1" 1, .subscribe "/ssv/mainnet/boole/1" 1,
      .unsubscribe "ssv.v2.1" 1, .subscribe "ssv.v2.2" 2, .unsubscribe "/ssv/mainnet/boole/1" 1,
      .subscribe "/ssv/mainnet/boole/2" 2, .unsubscribe "ssv.v2.2" 2] ∧
    ∀ topic, topic ∈ (Machine.run GossipNetwork.handle (.new none true : GossipNetwork ℕ)
      (forkTransitionRun.sent.map NetworkEvent.topicEvent)).subscribed ↔
        topic = "/ssv/mainnet/boole/2" := by
  refine ⟨by decide +kernel, fun topic => ?_⟩
  have hevents : (forkTransitionRun.sent.map fun e => (.topicEvent e : NetworkEvent ℕ)).filterMap
      NetworkEvent.topicEvent? = forkTransitionRun.sent := by
    rw [List.filterMap_map]
    exact List.filterMap_some
  have haccounted := (subscriptions_accounted subscribingService (.normal (forkConfig .alan))
    (subnetState (subnetCluster members)) sortedOrder forkTransition none true _ hevents).1
    (fun _ => {2}) (fun fork hfork => ?_) topic
  · refine haccounted.trans ?_
    change (∃ fork ∈ [Fork.boole], _) ↔ _
    simp only [List.mem_singleton, exists_eq_left, Finset.mem_singleton]
    rfl
  · obtain rfl : fork = .boole := List.mem_singleton.mp hfork
    unfold SubscribingService.Targets
    decide +kernel

end Sample

/-! ## Databases that the chain has built -/

/-- Whatever the chain has said, every fork has target subnets, and all of them exist. -/
theorem target_subnets_exist {C : Type} [DecidableEq C] (env : EventEnv C)
    (hkeccak : Function.Injective env.keccak256) (db : NetworkDatabase C) (h : db.Reachable env)
    (service : SubscribingService) (fork : Fork) :
    ∃ subnets, service.Targets db.state fork subnets ∧ ∀ s ∈ subnets, s < subnetCount := by
  obtain ⟨subnets, hsubnets⟩ := (h.sound hkeccak).exists_targets service fork
  exact ⟨subnets, hsubnets, fun s => SubnetGenerator.lt_of_mem_generateSubnets hsubnets⟩

theorem Sample.target_subnets_exist_oneValidator :
    ∃ subnets, subscribingService.Targets oneValidator.state .boole subnets := by
  obtain ⟨subnets, hsubnets, -⟩ := target_subnets_exist chainEnv Function.injective_id
    oneValidator (.new _) subscribingService .boole
  exact ⟨subnets, hsubnets⟩

end Anchor
