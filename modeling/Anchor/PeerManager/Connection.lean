import Mathlib
import Anchor.Fork.Lifecycle
import Anchor.Library.Bitfield
import Anchor.Library.Rounding

/-!
# Connections of the peer manager

The connection manager keeps the set of connected peers, counts connections by direction
and notes the subnets that peers subscribe to, for each fork.  New connections pass the
limits of a counting component of libp2p; a peer that is needed for a subnet may pass
beyond them, up to a higher limit.  The limits follow from a target number of peers, by
arithmetic on 32-bit floating point numbers.
-/

namespace Anchor

/-! ## Limits -/

def f32 (x : ℚ) : ℚ := Binary.round 24 x

def peerExcessFactor : ℚ := f32 (1 / 10)

def minOutboundOnlyFactor : ℚ := f32 (1 / 5)

def priorityPeerExcess : ℚ := f32 (1 / 5)

def minPeersPerSubnet : ℕ := 6

/-- `(target_peers as f32 * factor).ceil()`, cut off at the largest value of its type. -/
def scaledPeers (factor : ℚ) (max targetPeers : ℕ) : ℕ :=
  min ⌈f32 (f32 targetPeers * factor)⌉₊ max

structure ConnectionLimits where
  maxEstablishedIncoming : ℕ
  maxEstablishedOutgoing : ℕ
  maxEstablished : ℕ
  maxEstablishedPerPeer : ℕ

def ConnectionLimits.ofTarget (targetPeers : ℕ) : ConnectionLimits where
  maxEstablishedIncoming :=
    scaledPeers (f32 (f32 (1 + peerExcessFactor) - minOutboundOnlyFactor)) (2 ^ 32 - 1) targetPeers
  maxEstablishedOutgoing := scaledPeers (f32 (1 + peerExcessFactor)) (2 ^ 32 - 1) targetPeers
  maxEstablished := scaledPeers (f32 (1 + peerExcessFactor)) (2 ^ 32 - 1) targetPeers
  maxEstablishedPerPeer := 1

def maxWithPriority (targetPeers : ℕ) : ℕ :=
  scaledPeers (f32 (f32 (1 + peerExcessFactor) + priorityPeerExcess)) (2 ^ 64 - 1) targetPeers

theorem f32_mono {x y : ℚ} (h : x ≤ y) : f32 x ≤ f32 y := Binary.round_mono (by decide) h

theorem maxEstablished_le_maxWithPriority (targetPeers : ℕ) :
    (ConnectionLimits.ofTarget targetPeers).maxEstablished ≤ maxWithPriority targetPeers := by
  have hfactor : f32 (1 + peerExcessFactor) ≤
      f32 (f32 (1 + peerExcessFactor) + priorityPeerExcess) := by
    decide +kernel
  have hscaled : f32 (f32 targetPeers * f32 (1 + peerExcessFactor)) ≤
      f32 (f32 targetPeers * f32 (f32 (1 + peerExcessFactor) + priorityPeerExcess)) :=
    f32_mono (mul_le_mul_of_nonneg_left hfactor (Binary.round_nonneg 24 _))
  have hmax : 2 ^ 32 - 1 ≤ 2 ^ 64 - 1 := by decide
  exact min_le_min (Nat.ceil_le_ceil hscaled) hmax

structure LimitsBehaviour (Peer : Type) where
  limits : ConnectionLimits
  inbound : Finset ℕ
  outbound : Finset ℕ
  perPeer : Peer → Finset ℕ

namespace LimitsBehaviour

variable {Peer : Type} [DecidableEq Peer]

def new (limits : ConnectionLimits) : LimitsBehaviour Peer := ⟨limits, ∅, ∅, fun _ => ∅⟩

def allows (b : LimitsBehaviour Peer) (peer : Peer) (outbound : Bool) : Bool :=
  (if outbound then b.outbound.card < b.limits.maxEstablishedOutgoing
    else b.inbound.card < b.limits.maxEstablishedIncoming) ∧
  (b.perPeer peer).card < b.limits.maxEstablishedPerPeer ∧
  b.inbound.card + b.outbound.card < b.limits.maxEstablished

def established (b : LimitsBehaviour Peer) (id : ℕ) (peer : Peer) (outbound : Bool) :
    LimitsBehaviour Peer :=
  { b with
    inbound := if outbound then b.inbound else insert id b.inbound
    outbound := if outbound then insert id b.outbound else b.outbound
    perPeer := Function.update b.perPeer peer (insert id (b.perPeer peer)) }

def closed (b : LimitsBehaviour Peer) (id : ℕ) (peer : Peer) : LimitsBehaviour Peer :=
  { b with
    inbound := b.inbound.erase id
    outbound := b.outbound.erase id
    perPeer := Function.update b.perPeer peer ((b.perPeer peer).erase id) }

end LimitsBehaviour

/-! ## Observed subnets -/

abbrev ForkBitmaps := Fork → Option (Bitfield 128)

inductive ObservedPeerSubnets where
  | unknown
  | knownEmpty
  | known (forkMap : ForkBitmaps)

namespace ObservedPeerSubnets

def isEmpty (forkMap : ForkBitmaps) : Bool :=
  ForkSchedule.allForks.all fun fork => (forkMap fork).isNone

def subscribe (state : ObservedPeerSubnets) (fork : Fork) (idx : ℕ) : ObservedPeerSubnets :=
  let forkMap : ForkBitmaps := match state with
    | known forkMap => forkMap
    | unknown | knownEmpty => fun _ => none
  known (Function.update forkMap fork (some (((forkMap fork).getD .zero).set idx true)))

def unsubscribe (state : ObservedPeerSubnets) (fork : Fork) (idx : ℕ) : ObservedPeerSubnets :=
  match state with
  | unknown | knownEmpty => knownEmpty
  | known forkMap =>
    let cleared : ForkBitmaps := match forkMap fork with
      | none => forkMap
      | some bitfield =>
        let bitfield := bitfield.set idx false
        Function.update forkMap fork (if bitfield.isZero then none else some bitfield)
    if isEmpty cleared then knownEmpty else known cleared

def aggregateForkBitmaps (forkMap : ForkBitmaps) : Bitfield 128 :=
  (ForkSchedule.allForks.filterMap forkMap).foldl Bitfield.union .zero

/-- The bitfield for a lifecycle; `none` when nothing was observed yet. -/
def forLifecycle (lifecycle : ForkLifecycle) : ObservedPeerSubnets → Option (Bitfield 128)
  | unknown => none
  | knownEmpty => some .zero
  | known forkMap =>
    match lifecycle with
    | .normal current => some ((forkMap current.fork).getD .zero)
    | .warmUp _ _ | .gracePeriod _ _ => some (aggregateForkBitmaps forkMap)

def bit (state : ObservedPeerSubnets) (fork : Fork) (idx : ℕ) : Bool :=
  match state with
  | unknown | knownEmpty => false
  | known forkMap => ((forkMap fork).getD .zero).get idx

theorem bit_subscribe (state : ObservedPeerSubnets) {fork : Fork} {idx : ℕ} (h : idx < 128)
    (fork' : Fork) (idx' : ℕ) : (state.subscribe fork idx).bit fork' idx' =
      if fork' = fork ∧ idx' = idx then true else state.bit fork' idx' := by
  by_cases hfork : fork' = fork
  · subst hfork
    by_cases hidx : idx' = idx
    · cases state <;> simp [subscribe, bit, Bitfield.get_set _ h, hidx]
    · cases state <;> simp [subscribe, bit, Bitfield.get_set _ h, hidx]
  · cases state <;> simp [subscribe, bit, hfork]

theorem isEmpty_iff {forkMap : ForkBitmaps} :
    isEmpty forkMap = true ↔ ∀ fork, forkMap fork = none := by
  simp only [isEmpty, ForkSchedule.allForks, List.all_cons, List.all_nil, Bool.and_true,
    Bool.and_eq_true, Option.isNone_iff_eq_none]
  constructor
  · rintro ⟨halan, hboole⟩ fork
    cases fork with
    | alan => exact halan
    | boole => exact hboole
  · intro h
    exact ⟨h .alan, h .boole⟩

theorem bit_ite_isEmpty (forkMap : ForkBitmaps) (fork : Fork) (idx : ℕ) :
    (if isEmpty forkMap then knownEmpty else known forkMap).bit fork idx =
      (known forkMap).bit fork idx := by
  split_ifs with hempty
  · simp [bit, isEmpty_iff.mp hempty fork]
  · rfl

theorem get_getD_ite_isZero (bitfield : Bitfield 128) (idx : ℕ) :
    ((if bitfield.isZero then none else some bitfield).getD .zero).get idx = bitfield.get idx := by
  split_ifs with hzero
  · simp [Bitfield.isZero_iff.mp hzero idx]
  · rfl

theorem bit_unsubscribe (state : ObservedPeerSubnets) {fork : Fork} {idx : ℕ} (h : idx < 128)
    (fork' : Fork) (idx' : ℕ) : (state.unsubscribe fork idx).bit fork' idx' =
      if fork' = fork ∧ idx' = idx then false else state.bit fork' idx' := by
  cases state with
  | unknown => simp [unsubscribe, bit]
  | knownEmpty => simp [unsubscribe, bit]
  | known forkMap =>
    simp only [unsubscribe, bit_ite_isEmpty]
    cases hforkMap : forkMap fork with
    | none =>
      by_cases hfork : fork' = fork
      · subst hfork
        simp [bit, hforkMap]
      · simp [hfork]
    | some bitfield =>
      by_cases hfork : fork' = fork
      · subst hfork
        simp only [bit, Function.update_self, get_getD_ite_isZero, Bitfield.get_set _ h,
          hforkMap, Option.getD_some, true_and]
      · simp [bit, hfork]

theorem get_forLifecycle (state : ObservedPeerSubnets) (lifecycle : ForkLifecycle) (idx : ℕ) :
    ((state.forLifecycle lifecycle).getD .zero).get idx =
      match lifecycle with
      | .normal current => state.bit current.fork idx
      | .warmUp _ _ | .gracePeriod _ _ => state.bit .alan idx || state.bit .boole idx := by
  have haggregate : ∀ forkMap : ForkBitmaps, (aggregateForkBitmaps forkMap).get idx =
      (((forkMap .alan).getD .zero).get idx || ((forkMap .boole).getD .zero).get idx) := by
    intro forkMap
    unfold aggregateForkBitmaps ForkSchedule.allForks
    cases halan : forkMap .alan <;> cases hboole : forkMap .boole <;>
      simp [halan, hboole, Bitfield.get_union]
  cases state with
  | unknown => cases lifecycle <;> simp [forLifecycle, bit]
  | knownEmpty => cases lifecycle <;> simp [forLifecycle, bit]
  | known forkMap => cases lifecycle <;> simp [forLifecycle, bit, haggregate]

end ObservedPeerSubnets

/-! ## The connection manager -/

structure ConnectionManager (Peer : Type) where
  connectionLimits : LimitsBehaviour Peer
  connected : Finset Peer
  targetPeers : ℕ
  maxWithPriorityPeers : ℕ
  observedPeerSubnets : Peer → Option ObservedPeerSubnets
  inboundCount : ℕ
  outboundCount : ℕ

namespace ConnectionManager

variable {Peer : Type}

def new (targetPeers : ℕ) : ConnectionManager Peer where
  connectionLimits := .new (.ofTarget targetPeers)
  connected := ∅
  targetPeers := targetPeers
  maxWithPriorityPeers := maxWithPriority targetPeers
  observedPeerSubnets := fun _ => none
  inboundCount := 0
  outboundCount := 0

def setTargetPeers (m : ConnectionManager Peer) (newTarget : ℕ) : ConnectionManager Peer :=
  if m.targetPeers = newTarget then m
  else
    { m with
      targetPeers := newTarget
      maxWithPriorityPeers := maxWithPriority newTarget
      connectionLimits := .new (.ofTarget newTarget) }

variable [DecidableEq Peer]

def setPeerSubscribed (m : ConnectionManager Peer) (peer : Peer) (fork : Fork) (idx : ℕ)
    (subscribed : Bool) : ConnectionManager Peer :=
  if 128 ≤ idx then m
  else
    let state := (m.observedPeerSubnets peer).getD .unknown
    { m with
      observedPeerSubnets := Function.update m.observedPeerSubnets peer
        (some (if subscribed then state.subscribe fork idx else state.unsubscribe fork idx)) }

omit [DecidableEq Peer] in
def getPeerSubnetsForLifecycle (m : ConnectionManager Peer) (peer : Peer)
    (lifecycle : ForkLifecycle) : Option (Bitfield 128) :=
  (m.observedPeerSubnets peer).bind (·.forLifecycle lifecycle)

def getPeerSubnetsWithEnrFallback (m : ConnectionManager Peer) (lifecycle : ForkLifecycle)
    (enr : Peer → Option (Bitfield 128)) (peer : Peer) : Option (Bitfield 128) :=
  (m.getPeerSubnetsForLifecycle peer lifecycle).or (enr peer)

def peerOffersNeededSubnetsWithEnrFallback (m : ConnectionManager Peer)
    (lifecycle : ForkLifecycle) (enr : Peer → Option (Bitfield 128)) (peer : Peer)
    (needed : Finset ℕ) : Bool :=
  if needed = ∅ then true
  else
    match m.getPeerSubnetsWithEnrFallback lifecycle enr peer with
    | none => true
    | some bitfield => ∃ subnet ∈ needed, bitfield.get subnet = true

def countObservedPeersForSubnet (m : ConnectionManager Peer) (lifecycle : ForkLifecycle)
    (subnet : ℕ) : ℕ :=
  (m.connected.filter fun peer =>
    (m.getPeerSubnetsForLifecycle peer lifecycle).any (·.get subnet)).card

def qualifiesForPriorityConnection (m : ConnectionManager Peer) (lifecycle : ForkLifecycle)
    (enr : Peer → Option (Bitfield 128)) (peer : Peer) (needed : Finset ℕ) : Bool :=
  match m.getPeerSubnetsWithEnrFallback lifecycle enr peer with
  | none => false
  | some bitfield => ∃ subnet ∈ needed, bitfield.get subnet = true ∧
      m.countObservedPeersForSubnet lifecycle subnet < minPeersPerSubnet

def finishEstablishedConnection (m : ConnectionManager Peer) (limitResult : Bool)
    (lifecycle : ForkLifecycle) (enr : Peer → Option (Bitfield 128)) (peer : Peer)
    (needed : Finset ℕ) : Bool :=
  if limitResult then m.peerOffersNeededSubnetsWithEnrFallback lifecycle enr peer needed
  else m.connected.card < m.maxWithPriorityPeers ∧
    m.qualifiesForPriorityConnection lifecycle enr peer needed

def handleEstablishedConnection (m : ConnectionManager Peer) (lifecycle : ForkLifecycle)
    (enr : Peer → Option (Bitfield 128)) (peer : Peer) (outbound : Bool) (needed : Finset ℕ) :
    Bool :=
  m.finishEstablishedConnection (m.connectionLimits.allows peer outbound) lifecycle enr peer needed

def onConnectionEstablished (m : ConnectionManager Peer) (peer : Peer) (isOutbound : Bool) :
    ConnectionManager Peer :=
  let isNew := peer ∉ m.connected
  { m with
    observedPeerSubnets := Function.update m.observedPeerSubnets peer
      (some ((m.observedPeerSubnets peer).getD .unknown))
    connected := insert peer m.connected
    outboundCount := if isNew ∧ isOutbound then m.outboundCount + 1 else m.outboundCount
    inboundCount := if isNew ∧ ¬ isOutbound then m.inboundCount + 1 else m.inboundCount }

/-- Subtraction is that of natural numbers, as the source's saturates. -/
def onConnectionClosed (m : ConnectionManager Peer) (peer : Peer) (wasOutbound : Bool) :
    ConnectionManager Peer :=
  let wasConnected := peer ∈ m.connected
  { m with
    observedPeerSubnets := Function.update m.observedPeerSubnets peer none
    connected := m.connected.erase peer
    outboundCount := if wasConnected ∧ wasOutbound then m.outboundCount - 1 else m.outboundCount
    inboundCount := if wasConnected ∧ ¬ wasOutbound then m.inboundCount - 1 else m.inboundCount }

omit [DecidableEq Peer] in
def bit (m : ConnectionManager Peer) (peer : Peer) (fork : Fork) (idx : ℕ) : Bool :=
  ((m.observedPeerSubnets peer).getD .unknown).bit fork idx

variable (m : ConnectionManager Peer) (peer : Peer)

theorem bit_setPeerSubscribed (fork : Fork) {idx : ℕ}
    (hidx : idx < 128) (subscribed : Bool) (peer' : Peer) (fork' : Fork) (idx' : ℕ) :
    (m.setPeerSubscribed peer fork idx subscribed).bit peer' fork' idx' =
      if peer' = peer ∧ fork' = fork ∧ idx' = idx then subscribed else m.bit peer' fork' idx' := by
  rw [setPeerSubscribed, if_neg (not_le.mpr hidx)]
  by_cases hpeer : peer' = peer
  · subst hpeer
    cases subscribed
    · simp [bit, ObservedPeerSubnets.bit_unsubscribe _ hidx]
    · simp [bit, ObservedPeerSubnets.bit_subscribe _ hidx]
  · simp [bit, hpeer]

theorem setPeerSubscribed_of_le (fork : Fork) {idx : ℕ}
    (hidx : 128 ≤ idx) (subscribed : Bool) : m.setPeerSubscribed peer fork idx subscribed = m :=
  if_pos hidx

theorem bit_onConnectionEstablished
    (isOutbound : Bool) : (m.onConnectionEstablished peer isOutbound).bit = m.bit := by
  funext peer' fork idx
  by_cases hpeer : peer' = peer
  · subst hpeer
    simp [bit, onConnectionEstablished]
  · simp [bit, onConnectionEstablished, hpeer]

theorem bit_onConnectionClosed (wasOutbound : Bool)
    (peer' : Peer) (fork : Fork) (idx : ℕ) :
    (m.onConnectionClosed peer wasOutbound).bit peer' fork idx =
      if peer' = peer then false else m.bit peer' fork idx := by
  by_cases hpeer : peer' = peer
  · subst hpeer
    simp [bit, onConnectionClosed, ObservedPeerSubnets.bit]
  · simp [bit, onConnectionClosed, hpeer]

omit [DecidableEq Peer] in
theorem get_getPeerSubnetsForLifecycle (lifecycle : ForkLifecycle) (idx : ℕ) :
    ((m.getPeerSubnetsForLifecycle peer lifecycle).getD .zero).get idx =
      match lifecycle with
      | .normal current => m.bit peer current.fork idx
      | .warmUp _ _ | .gracePeriod _ _ => m.bit peer .alan idx || m.bit peer .boole idx := by
  unfold getPeerSubnetsForLifecycle bit
  cases m.observedPeerSubnets peer with
  | none => cases lifecycle <;> simp [ObservedPeerSubnets.bit]
  | some state => exact state.get_forLifecycle lifecycle idx

end ConnectionManager

/-! ## The peer manager -/

def basePeerCount : ℕ := 60

def peersPerSubnet : ℕ := 3

def maxPeerCount : ℕ := 150

structure PeerManager (Peer : Type) where
  connectionManager : ConnectionManager Peer
  neededSubnets : Finset ℕ

namespace PeerManager

variable {Peer : Type}

def calculateTargetPeers (activeSubnetCount : ℕ) : ℕ :=
  min (basePeerCount + activeSubnetCount * peersPerSubnet) maxPeerCount

def new (targetPeers : Option ℕ) : PeerManager Peer :=
  ⟨.new (targetPeers.getD basePeerCount), ∅⟩

def setNeededSubnets (m : PeerManager Peer) (isDynamicTargetPeers : Bool)
    (neededSubnets : Finset ℕ) : PeerManager Peer where
  connectionManager :=
    if isDynamicTargetPeers then
      m.connectionManager.setTargetPeers (calculateTargetPeers neededSubnets.card)
    else m.connectionManager
  neededSubnets := neededSubnets

def joinSubnet (m : PeerManager Peer) (subnet : ℕ) (isDynamicTargetPeers : Bool) :
    PeerManager Peer :=
  m.setNeededSubnets isDynamicTargetPeers (insert subnet m.neededSubnets)

def leaveSubnet (m : PeerManager Peer) (subnet : ℕ) (isDynamicTargetPeers : Bool) :
    PeerManager Peer :=
  m.setNeededSubnets isDynamicTargetPeers (m.neededSubnets.erase subnet)

end PeerManager

end Anchor
