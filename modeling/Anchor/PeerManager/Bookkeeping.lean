import Mathlib
import Anchor.Library.Machine
import Anchor.PeerManager.Connection

/-!
# What the connection manager knows of its peers

The swarm reports every connection that is established or closed, of which a peer can have
several, and the topics that peers subscribe to.  The manager keeps one entry per peer.
Its books are exact as long as a connection that closes is the last one of its peer, and no
subscriptions are left of a peer when it connects.
-/

namespace Anchor

/-! ## Forks of a lifecycle -/

namespace ForkLifecycle

def relevantForks : ForkLifecycle → List Fork
  | normal current => [current.fork]
  | warmUp current upcoming => [current.fork, upcoming.fork]
  | gracePeriod current previous => [current.fork, previous.fork]

/-- A transition is one between different forks. -/
def Proper (lifecycle : ForkLifecycle) : Prop := lifecycle.relevantForks.Nodup

theorem exists_mem_pair_iff {a b : Fork} (h : [a, b].Nodup) {p : Fork → Prop} :
    (∃ fork ∈ [a, b], p fork) ↔ p .alan ∨ p .boole := by
  cases a <;> cases b <;> simp at h ⊢
  exact or_comm

end ForkLifecycle

theorem ForkSchedule.Accepted.proper_lifecycleAt {schedule : ForkSchedule} (h : schedule.Accepted)
    (slot slotsPerEpoch : ℕ) : (schedule.lifecycleAt slot slotsPerEpoch).Proper := by
  obtain ⟨domainType, hconfigs | ⟨epoch, domainType', hconfigs⟩⟩ := h.configs_eq
  · rw [lifecycleAt_of_alan hconfigs]
    exact List.nodup_singleton _
  · rw [lifecycleAt_of_boole hconfigs]
    split_ifs with hnext hprepared hgrace
    · simp [ForkLifecycle.Proper, ForkLifecycle.relevantForks]
    · exact List.nodup_singleton _
    · rw [activeForkConfig_of_boole hconfigs, if_neg (by omega)]
      simp [ForkLifecycle.Proper, ForkLifecycle.relevantForks]
    · exact List.nodup_singleton _

/-! ## The swarm -/

structure Connection (Peer : Type) where
  id : ℕ
  peer : Peer
  outbound : Bool
deriving DecidableEq

structure SubscriptionEvent where
  fork : Fork
  subnet : ℕ
  subscribed : Bool

/-- The last event for a subnet decides. -/
def subscribedTo (events : List SubscriptionEvent) (fork : Fork) (subnet : ℕ) : Bool :=
  events.foldl (fun b e => if e.fork = fork ∧ e.subnet = subnet then e.subscribed else b) false

theorem subscribedTo_concat (events : List SubscriptionEvent) (e : SubscriptionEvent) (fork : Fork)
    (subnet : ℕ) : subscribedTo (events ++ [e]) fork subnet =
      if e.fork = fork ∧ e.subnet = subnet then e.subscribed
      else subscribedTo events fork subnet := by
  rw [subscribedTo, List.foldl_append]
  rfl

/-- The open connections, the subscription events of each peer since it connected, and the
largest limit with priority that was set so far, next to the peer manager. -/
structure Swarm (Peer : Type) where
  opened : List (Connection Peer)
  next : ℕ
  since : Peer → List SubscriptionEvent
  peak : ℕ
  peerManager : PeerManager Peer

/-- What decides whether a connection is let in, apart from the peer manager. -/
structure Surroundings (Peer : Type) where
  lifecycle : ForkLifecycle
  enr : Peer → Option (Bitfield 128)

inductive SwarmEvent (Peer : Type) where
  | connectionEstablished (peer : Peer) (outbound : Bool) (surroundings : Surroundings Peer)
  | connectionClosed (id : ℕ)
  | subscription (peer : Peer) (event : SubscriptionEvent)
  | join (subnet : ℕ)
  | leave (subnet : ℕ)

namespace Swarm

variable {Peer : Type} [DecidableEq Peer]

omit [DecidableEq Peer] in
def new (targetPeers : Option ℕ) : Swarm Peer where
  opened := []
  next := 0
  since := fun _ => []
  peak := maxWithPriority (targetPeers.getD basePeerCount)
  peerManager := .new targetPeers

omit [DecidableEq Peer] in
def manager (w : Swarm Peer) : ConnectionManager Peer := w.peerManager.connectionManager

def openPeers (w : Swarm Peer) : Finset Peer := (w.opened.map Connection.peer).toFinset

def established (w : Swarm Peer) (peer : Peer) (outbound : Bool) : Swarm Peer where
  opened := w.opened ++ [⟨w.next, peer, outbound⟩]
  next := w.next + 1
  since := if peer ∈ w.openPeers then w.since else Function.update w.since peer []
  peak := w.peak
  peerManager := { w.peerManager with
    connectionManager := { w.manager.onConnectionEstablished peer outbound with
      connectionLimits := w.manager.connectionLimits.established w.next peer outbound } }

def closed (w : Swarm Peer) (c : Connection Peer) : Swarm Peer where
  opened := w.opened.filter (·.id ≠ c.id)
  next := w.next
  since := w.since
  peak := w.peak
  peerManager := { w.peerManager with
    connectionManager := { w.manager.onConnectionClosed c.peer c.outbound with
      connectionLimits := w.manager.connectionLimits.closed c.id c.peer } }

def subscription (w : Swarm Peer) (peer : Peer) (e : SubscriptionEvent) : Swarm Peer where
  opened := w.opened
  next := w.next
  since :=
    if peer ∈ w.openPeers then Function.update w.since peer (w.since peer ++ [e]) else w.since
  peak := w.peak
  peerManager := { w.peerManager with
    connectionManager := w.manager.setPeerSubscribed peer e.fork e.subnet e.subscribed }

omit [DecidableEq Peer] in
def withPeerManager (w : Swarm Peer) (m : PeerManager Peer) : Swarm Peer :=
  { w with peak := max w.peak m.connectionManager.maxWithPriorityPeers, peerManager := m }

/-- The events of the swarm.  Only an open connection can close. -/
def step (isDynamicTargetPeers : Bool) (w : Swarm Peer) : SwarmEvent Peer → Swarm Peer
  | .connectionEstablished peer outbound _ => w.established peer outbound
  | .connectionClosed id => (w.opened.find? (·.id = id)).elim w w.closed
  | .subscription peer e => w.subscription peer e
  | .join subnet => w.withPeerManager (w.peerManager.joinSubnet subnet isDynamicTargetPeers)
  | .leave subnet => w.withPeerManager (w.peerManager.leaveSubnet subnet isDynamicTargetPeers)

def Admitted (w : Swarm Peer) : SwarmEvent Peer → Prop
  | .connectionEstablished peer outbound s => w.manager.handleEstablishedConnection s.lifecycle
      s.enr peer outbound w.peerManager.neededSubnets = true
  | .connectionClosed _ | .subscription _ _ | .join _ | .leave _ => True

instance (w : Swarm Peer) (e : SwarmEvent Peer) : Decidable (w.Admitted e) := by
  cases e <;> unfold Admitted <;> infer_instance

/-! ## Exact books -/

structure Exact (w : Swarm Peer) : Prop where
  connected_eq : w.manager.connected = w.openPeers
  count_eq : w.manager.inboundCount + w.manager.outboundCount = w.manager.connected.card
  observed : ∀ peer ∈ w.openPeers, ∀ lifecycle : ForkLifecycle, lifecycle.Proper →
    ∀ subnet < 128,
      ((w.manager.getPeerSubnetsForLifecycle peer lifecycle).getD .zero).get subnet = true ↔
        ∃ fork ∈ lifecycle.relevantForks, subscribedTo (w.since peer) fork subnet = true

/-- A connection that closes is the last one of its peer, and of a peer that connects no
subscription is left. -/
def Tidy (w : Swarm Peer) : SwarmEvent Peer → Prop
  | .connectionEstablished peer _ _ =>
    peer ∈ w.openPeers ∨ ∀ fork, ∀ subnet < 128, w.manager.bit peer fork subnet = false
  | .connectionClosed id => ∀ c ∈ w.opened, c.id = id → ∀ c' ∈ w.opened, c'.peer = c.peer → c' = c
  | .subscription _ _ | .join _ | .leave _ => True

/-- Connections have different numbers, and the connected peers are those with one. -/
structure Consistent (w : Swarm Peer) : Prop where
  ids_lt : ∀ c ∈ w.opened, c.id < w.next
  nodup : (w.opened.map Connection.id).Nodup
  connected_eq : w.manager.connected = w.openPeers

/-- What tidy events keep.  A direction is noted for each peer: that of its only connection,
if it has only one. -/
structure Kept (w : Swarm Peer) : Prop extends Consistent w where
  counts : ∃ dir : Peer → Bool,
    w.manager.outboundCount = (w.openPeers.filter fun p => dir p = true).card ∧
    w.manager.inboundCount = (w.openPeers.filter fun p => ¬ dir p = true).card ∧
    ∀ c ∈ w.opened, (∀ c' ∈ w.opened, c'.peer = c.peer → c' = c) → dir c.peer = c.outbound
  bits : ∀ peer ∈ w.openPeers, ∀ fork, ∀ subnet < 128,
    w.manager.bit peer fork subnet = subscribedTo (w.since peer) fork subnet

theorem consistent_new (targetPeers : Option ℕ) : Consistent (new targetPeers : Swarm Peer) where
  ids_lt := by simp [new]
  nodup := by simp [new]
  connected_eq := rfl

theorem kept_new (targetPeers : Option ℕ) : Kept (new targetPeers : Swarm Peer) where
  toConsistent := consistent_new targetPeers
  counts := ⟨fun _ => false, rfl, rfl, by simp [new]⟩
  bits := by simp [new, openPeers]

variable {peer : Peer}

theorem mem_openPeers {w : Swarm Peer} :
    peer ∈ w.openPeers ↔ ∃ c ∈ w.opened, c.peer = peer := by
  simp [openPeers]

variable {c : Connection Peer}

theorem Consistent.find?_id {w : Swarm Peer} (h : w.Consistent)
    (hc : c ∈ w.opened) {id : ℕ} (hid : c.id = id) : w.opened.find? (·.id = id) = some c := by
  obtain ⟨found, hfound⟩ : ∃ found, w.opened.find? (·.id = id) = some found :=
    Option.isSome_iff_exists.mp (List.find?_isSome.mpr ⟨c, hc, decide_eq_true hid⟩)
  have hsame : found.id = id := by simpa using List.find?_some hfound
  rw [hfound, Option.some.injEq]
  exact List.inj_on_of_nodup_map h.nodup (List.mem_of_find?_eq_some hfound) hc
    (hsame.trans hid.symm)

theorem Kept.exact {w : Swarm Peer} (h : w.Kept) : w.Exact := by
  refine ⟨h.connected_eq, ?_, ?_⟩
  · obtain ⟨dir, hout, hin, -⟩ := h.counts
    rw [hin, hout, h.connected_eq, add_comm, Finset.card_filter_add_card_filter_not]
  · intro peer hpeer lifecycle hproper subnet hsubnet
    have hbit := fun fork => h.bits peer hpeer fork subnet hsubnet
    rw [ConnectionManager.get_getPeerSubnetsForLifecycle]
    cases lifecycle with
    | normal current => simp [ForkLifecycle.relevantForks, hbit]
    | warmUp current upcoming =>
      rw [ForkLifecycle.relevantForks, ForkLifecycle.exists_mem_pair_iff hproper]
      simp [hbit]
    | gracePeriod current previous =>
      rw [ForkLifecycle.relevantForks, ForkLifecycle.exists_mem_pair_iff hproper]
      simp [hbit]

/-! ## Tidy events -/

variable {w : Swarm Peer}

theorem openPeers_established (w : Swarm Peer) (peer : Peer) (outbound : Bool) :
    (w.established peer outbound).openPeers = insert peer w.openPeers := by
  ext p
  simp [openPeers, established]

theorem openPeers_closed (hc : c ∈ w.opened)
    (hsole : ∀ c' ∈ w.opened, c'.peer = c.peer → c' = c)
    (hnodup : (w.opened.map Connection.id).Nodup) :
    (w.closed c).openPeers = w.openPeers.erase c.peer := by
  ext p
  rw [Finset.mem_erase, mem_openPeers, mem_openPeers]
  simp only [closed, List.mem_filter, decide_eq_true_eq]
  constructor
  · rintro ⟨d, ⟨hd, hid⟩, rfl⟩
    refine ⟨fun hpeer => hid ?_, d, hd, rfl⟩
    rw [hsole d hd hpeer]
  · rintro ⟨hpeer, d, hd, rfl⟩
    refine ⟨d, ⟨hd, fun hid => hpeer ?_⟩, rfl⟩
    rw [List.inj_on_of_nodup_map hnodup hd hc hid]

theorem outboundCount_established (w : Swarm Peer) (peer : Peer) (outbound : Bool) :
    (w.established peer outbound).manager.outboundCount =
      if peer ∉ w.manager.connected ∧ outbound = true then w.manager.outboundCount + 1
      else w.manager.outboundCount := rfl

theorem inboundCount_established (w : Swarm Peer) (peer : Peer) (outbound : Bool) :
    (w.established peer outbound).manager.inboundCount =
      if peer ∉ w.manager.connected ∧ ¬ outbound = true then w.manager.inboundCount + 1
      else w.manager.inboundCount := rfl

theorem bit_established (w : Swarm Peer) (peer : Peer) (outbound : Bool) :
    (w.established peer outbound).manager.bit = w.manager.bit :=
  w.manager.bit_onConnectionEstablished peer outbound

theorem outboundCount_closed (w : Swarm Peer) (c : Connection Peer) :
    (w.closed c).manager.outboundCount =
      if c.peer ∈ w.manager.connected ∧ c.outbound = true then w.manager.outboundCount - 1
      else w.manager.outboundCount := rfl

theorem inboundCount_closed (w : Swarm Peer) (c : Connection Peer) :
    (w.closed c).manager.inboundCount =
      if c.peer ∈ w.manager.connected ∧ ¬ c.outbound = true then w.manager.inboundCount - 1
      else w.manager.inboundCount := rfl

theorem bit_closed (w : Swarm Peer) (c : Connection Peer) (peer : Peer) (fork : Fork) (idx : ℕ) :
    (w.closed c).manager.bit peer fork idx =
      if peer = c.peer then false else w.manager.bit peer fork idx :=
  w.manager.bit_onConnectionClosed c.peer c.outbound peer fork idx

theorem filter_update (dir : Peer → Bool) {s : Finset Peer} (h : peer ∉ s)
    (b : Bool) : s.filter (fun p => Function.update dir peer b p = true) =
      s.filter fun p => dir p = true := by
  apply Finset.filter_congr
  intro p hp
  rw [Function.update_of_ne (ne_of_mem_of_not_mem hp h)]

theorem filter_not_update (dir : Peer → Bool) {s : Finset Peer} (h : peer ∉ s)
    (b : Bool) : s.filter (fun p => ¬ Function.update dir peer b p = true) =
      s.filter fun p => ¬ dir p = true := by
  apply Finset.filter_congr
  intro p hp
  rw [Function.update_of_ne (ne_of_mem_of_not_mem hp h)]

theorem mem_opened_established {outbound : Bool} :
    c ∈ (w.established peer outbound).opened ↔ c ∈ w.opened ∨ c = ⟨w.next, peer, outbound⟩ := by
  simp [established]

theorem Consistent.established (h : w.Consistent) (peer : Peer) (outbound : Bool) :
    (w.established peer outbound).Consistent := by
  refine ⟨?_, ?_, ?_⟩
  · intro c hc
    rcases mem_opened_established.mp hc with hc | rfl
    · exact (h.ids_lt c hc).trans (Nat.lt_succ_self _)
    · exact Nat.lt_succ_self _
  · simp only [Swarm.established, List.map_append, List.map_cons, List.map_nil]
    refine List.Nodup.append h.nodup (List.nodup_singleton _) ?_
    simp only [List.disjoint_singleton, List.mem_map, not_exists, not_and]
    intro c hc hid
    exact absurd (h.ids_lt c hc) (by omega)
  · rw [openPeers_established, ← h.connected_eq]
    rfl

theorem mem_opened_closed {c d : Connection Peer}
    (hsole : ∀ c' ∈ w.opened, c'.peer = c.peer → c' = c) (hd : d ∈ (w.closed c).opened) :
    d ∈ w.opened ∧ d.peer ≠ c.peer := by
  obtain ⟨hd, hid⟩ := List.mem_filter.mp hd
  refine ⟨hd, fun hpeer => ?_⟩
  rw [hsole d hd hpeer] at hid
  simp at hid

theorem Consistent.closed (h : w.Consistent) (hc : c ∈ w.opened)
    (hsole : ∀ c' ∈ w.opened, c'.peer = c.peer → c' = c) : (w.closed c).Consistent := by
  refine ⟨fun d hd => h.ids_lt d (mem_opened_closed hsole hd).1, ?_, ?_⟩
  · exact h.nodup.sublist (List.Sublist.map _ List.filter_sublist)
  · rw [openPeers_closed hc hsole h.nodup, ← h.connected_eq]
    rfl

theorem Consistent.subscription (h : w.Consistent) (peer : Peer) (e : SubscriptionEvent) :
    (w.subscription peer e).Consistent := by
  refine ⟨h.ids_lt, h.nodup, Eq.trans ?_ h.connected_eq⟩
  simp only [Swarm.subscription, manager, ConnectionManager.setPeerSubscribed]
  split_ifs <;> rfl

theorem Kept.established (h : w.Kept) (outbound : Bool)
    (htidy : peer ∈ w.openPeers ∨ ∀ fork, ∀ subnet < 128, w.manager.bit peer fork subnet = false) :
    (w.established peer outbound).Kept := by
  refine ⟨h.toConsistent.established peer outbound, ?_, ?_⟩
  · obtain ⟨dir, hout, hin, hdir⟩ := h.counts
    by_cases hopen : peer ∈ w.openPeers
    · -- one more connection of a connected peer
      refine ⟨dir, ?_, ?_, ?_⟩
      · rw [openPeers_established, Finset.insert_eq_of_mem hopen, outboundCount_established,
          if_neg (by simp [h.connected_eq, hopen]), hout]
      · rw [openPeers_established, Finset.insert_eq_of_mem hopen, inboundCount_established,
          if_neg (by simp [h.connected_eq, hopen]), hin]
      · intro c hc hsole
        obtain ⟨d, hd, hpeer⟩ := mem_openPeers.mp hopen
        have hd' : d ∈ (w.established peer outbound).opened := by
          simp [Swarm.established, hd]
        rcases mem_opened_established.mp hc with hold | rfl
        · refine hdir c hold fun c' hc' => hsole c' ?_
          simp [Swarm.established, hc']
        · have := h.ids_lt d hd
          rw [hsole d hd' hpeer] at this
          exact absurd this (lt_irrefl _)
    · -- the first connection of a peer
      refine ⟨Function.update dir peer outbound, ?_, ?_, ?_⟩
      · rw [openPeers_established, outboundCount_established, h.connected_eq, hout,
          Finset.filter_insert, filter_update dir hopen]
        cases outbound <;> simp [hopen]
      · rw [openPeers_established, inboundCount_established, h.connected_eq, hin,
          Finset.filter_insert, filter_not_update dir hopen]
        cases outbound <;> simp [hopen]
      · intro c hc hsole
        rcases mem_opened_established.mp hc with hold | rfl
        · have hne : c.peer ≠ peer := fun heq => hopen (mem_openPeers.mpr ⟨c, hold, heq⟩)
          rw [Function.update_of_ne hne]
          refine hdir c hold fun c' hc' => hsole c' ?_
          simp [Swarm.established, hc']
        · exact Function.update_self ..
  · intro p hp fork subnet hsubnet
    rw [bit_established]
    rw [openPeers_established, Finset.mem_insert] at hp
    by_cases hopen : peer ∈ w.openPeers
    · have hp' : p ∈ w.openPeers := by
        rcases hp with rfl | hp
        · exact hopen
        · exact hp
      rw [h.bits p hp' fork subnet hsubnet]
      simp [Swarm.established, hopen]
    · have hbits := htidy.resolve_left hopen
      by_cases hpeer : p = peer
      · subst hpeer
        rw [hbits fork subnet hsubnet]
        simp [Swarm.established, hopen, subscribedTo]
      · rw [h.bits p (hp.resolve_left hpeer) fork subnet hsubnet]
        simp [Swarm.established, hopen, hpeer]

theorem Kept.closed (h : w.Kept) (hc : c ∈ w.opened)
    (hsole : ∀ c' ∈ w.opened, c'.peer = c.peer → c' = c) : (w.closed c).Kept := by
  have hpeers := openPeers_closed hc hsole h.nodup
  have hopen : c.peer ∈ w.openPeers := mem_openPeers.mpr ⟨c, hc, rfl⟩
  refine ⟨h.toConsistent.closed hc hsole, ?_, ?_⟩
  · obtain ⟨dir, hout, hin, hdir⟩ := h.counts
    have hdirection := hdir c hc hsole
    refine ⟨dir, ?_, ?_, ?_⟩
    · rw [hpeers, outboundCount_closed, h.connected_eq, hout, Finset.filter_erase]
      cases hbound : c.outbound
      · rw [if_neg (by simp), Finset.erase_eq_of_notMem (by simp [hdirection, hbound])]
      · rw [if_pos ⟨hopen, rfl⟩, Finset.card_erase_of_mem (by simp [hdirection, hbound, hopen])]
    · rw [hpeers, inboundCount_closed, h.connected_eq, hin, Finset.filter_erase]
      cases hbound : c.outbound
      · rw [if_pos ⟨hopen, by simp⟩,
          Finset.card_erase_of_mem (by simp [hdirection, hbound, hopen])]
      · rw [if_neg (by simp), Finset.erase_eq_of_notMem (by simp [hdirection, hbound])]
    · intro d hd hsole'
      obtain ⟨hold, hne⟩ := mem_opened_closed hsole hd
      refine hdir d hold fun d' hd' hpeer => hsole' d' ?_ hpeer
      refine List.mem_filter.mpr ⟨hd', ?_⟩
      simp only [ne_eq, decide_eq_true_eq]
      intro hid
      rw [List.inj_on_of_nodup_map h.nodup hd' hc hid] at hpeer
      exact hne hpeer.symm
  · intro p hp fork subnet hsubnet
    rw [hpeers, Finset.mem_erase] at hp
    rw [bit_closed, if_neg hp.1, h.bits p hp.2 fork subnet hsubnet]
    rfl

theorem Kept.subscription (h : w.Kept) (peer : Peer) (e : SubscriptionEvent) :
    (w.subscription peer e).Kept := by
  have hmanager : (w.subscription peer e).manager.outboundCount = w.manager.outboundCount ∧
      (w.subscription peer e).manager.inboundCount = w.manager.inboundCount := by
    simp only [Swarm.subscription, manager, ConnectionManager.setPeerSubscribed]
    split_ifs <;> exact ⟨rfl, rfl⟩
  refine ⟨h.toConsistent.subscription peer e, ?_, ?_⟩
  · rw [hmanager.1, hmanager.2]
    exact h.counts
  · intro p hp fork subnet hsubnet
    have hbits := h.bits p hp fork subnet hsubnet
    have hbit : (w.subscription peer e).manager.bit p fork subnet =
        if p = peer ∧ fork = e.fork ∧ subnet = e.subnet then e.subscribed
        else w.manager.bit p fork subnet := by
      by_cases hidx : e.subnet < 128
      · exact w.manager.bit_setPeerSubscribed peer e.fork hidx e.subscribed p fork subnet
      · have hsame : (w.subscription peer e).manager = w.manager :=
          w.manager.setPeerSubscribed_of_le peer e.fork (not_lt.mp hidx) e.subscribed
        rw [hsame, if_neg (by omega)]
    rw [hbit, hbits]
    by_cases hpeer : p = peer
    · subst hpeer
      have hopen : p ∈ w.openPeers := hp
      simp only [Swarm.subscription, hopen, if_true, Function.update_self, subscribedTo_concat,
        true_and, eq_comm]
    · by_cases hopen : peer ∈ w.openPeers
      · simp [Swarm.subscription, hopen, hpeer]
      · simp [Swarm.subscription, hopen, hpeer]

omit [DecidableEq Peer] in
theorem connected_setNeededSubnets (m : PeerManager Peer) (isDynamicTargetPeers : Bool)
    (needed : Finset ℕ) :
    (m.setNeededSubnets isDynamicTargetPeers needed).connectionManager.connected =
      m.connectionManager.connected := by
  unfold PeerManager.setNeededSubnets ConnectionManager.setTargetPeers
  split_ifs <;> rfl

theorem Consistent.withPeerManager (h : w.Consistent) {m : PeerManager Peer}
    (hconnected : m.connectionManager.connected = w.manager.connected) :
    (w.withPeerManager m).Consistent :=
  ⟨h.ids_lt, h.nodup, hconnected.trans h.connected_eq⟩

theorem Kept.withPeerManager (h : w.Kept) {m : PeerManager Peer}
    (hconnected : m.connectionManager.connected = w.manager.connected)
    (hout : m.connectionManager.outboundCount = w.manager.outboundCount)
    (hin : m.connectionManager.inboundCount = w.manager.inboundCount)
    (hobserved : m.connectionManager.observedPeerSubnets = w.manager.observedPeerSubnets) :
    (w.withPeerManager m).Kept := by
  refine ⟨h.toConsistent.withPeerManager hconnected, ?_, ?_⟩
  · have hcounts := h.counts
    rw [← hout, ← hin] at hcounts
    exact hcounts
  · intro p hp fork subnet hsubnet
    have hbit : (w.withPeerManager m).manager.bit = w.manager.bit := by
      unfold ConnectionManager.bit
      rw [show (w.withPeerManager m).manager.observedPeerSubnets =
        w.manager.observedPeerSubnets from hobserved]
    rw [hbit]
    exact h.bits p hp fork subnet hsubnet

theorem Kept.setNeededSubnets (h : w.Kept) (isDynamicTargetPeers : Bool) (needed : Finset ℕ) :
    (w.withPeerManager (w.peerManager.setNeededSubnets isDynamicTargetPeers needed)).Kept := by
  have hsame : ∀ target,
      (w.manager.setTargetPeers target).outboundCount = w.manager.outboundCount ∧
      (w.manager.setTargetPeers target).inboundCount = w.manager.inboundCount ∧
      (w.manager.setTargetPeers target).observedPeerSubnets =
        w.manager.observedPeerSubnets := by
    intro target
    unfold ConnectionManager.setTargetPeers
    split_ifs <;> exact ⟨rfl, rfl, rfl⟩
  have hconnected := connected_setNeededSubnets w.peerManager isDynamicTargetPeers needed
  cases isDynamicTargetPeers
  · exact h.withPeerManager hconnected rfl rfl rfl
  · obtain ⟨hout, hin, hobserved⟩ := hsame (PeerManager.calculateTargetPeers needed.card)
    exact h.withPeerManager hconnected hout hin hobserved

theorem Kept.step (isDynamicTargetPeers : Bool) {e : SwarmEvent Peer} (h : w.Kept)
    (htidy : w.Tidy e) : (w.step isDynamicTargetPeers e).Kept := by
  cases e with
  | connectionEstablished peer outbound surroundings => exact h.established outbound htidy
  | connectionClosed id =>
    cases hfind : w.opened.find? (·.id = id) with
    | none =>
      rw [Swarm.step, hfind]
      exact h
    | some c =>
      have hc := List.mem_of_find?_eq_some hfind
      have hid : c.id = id := by simpa using List.find?_some hfind
      rw [Swarm.step, hfind]
      exact h.closed hc (htidy c hc hid)
  | subscription peer e => exact h.subscription peer e
  | join subnet => exact h.setNeededSubnets isDynamicTargetPeers _
  | leave subnet => exact h.setNeededSubnets isDynamicTargetPeers _

/-! ## Events that are not tidy -/

theorem not_exact_closed (h : w.Kept) {c d : Connection Peer} (hc : c ∈ w.opened)
    (hd : d ∈ w.opened) (hpeer : d.peer = c.peer) (hne : d ≠ c) : ¬ (w.closed c).Exact := by
  intro hexact
  have hopen : c.peer ∈ (w.closed c).openPeers := by
    refine mem_openPeers.mpr ⟨d, List.mem_filter.mpr ⟨hd, ?_⟩, hpeer⟩
    simp only [ne_eq, decide_eq_true_eq]
    exact fun hid => hne (List.inj_on_of_nodup_map h.nodup hd hc hid)
  rw [← hexact.connected_eq] at hopen
  exact Finset.notMem_erase _ _ hopen

theorem not_exact_established (outbound : Bool) (hpeer : peer ∉ w.openPeers)
    {fork : Fork} {subnet : ℕ} (hsubnet : subnet < 128)
    (hbit : w.manager.bit peer fork subnet = true) : ¬ (w.established peer outbound).Exact := by
  intro hexact
  have hopen : peer ∈ (w.established peer outbound).openPeers := by
    rw [openPeers_established]
    exact Finset.mem_insert_self _ _
  have hobserved := hexact.observed peer hopen (.normal ⟨fork, 0, ⟨List.replicate 4 0, rfl⟩⟩)
    (List.nodup_singleton _) subnet hsubnet
  rw [ConnectionManager.get_getPeerSubnetsForLifecycle, bit_established] at hobserved
  simp [hbit, ForkLifecycle.relevantForks, Swarm.established, hpeer, subscribedTo] at hobserved

theorem exact_step_iff (isDynamicTargetPeers : Bool) {e : SwarmEvent Peer} (h : w.Kept) :
    (w.step isDynamicTargetPeers e).Exact ↔ w.Tidy e := by
  refine ⟨?_, fun htidy => (h.step isDynamicTargetPeers htidy).exact⟩
  intro hexact
  cases e with
  | connectionEstablished peer outbound surroundings =>
    by_cases hopen : peer ∈ w.openPeers
    · exact Or.inl hopen
    refine Or.inr fun fork subnet hsubnet => ?_
    by_contra hbit
    exact not_exact_established outbound hopen hsubnet (by simpa using hbit) hexact
  | connectionClosed id =>
    intro c hc hid d hd hpeer
    by_contra hne
    rw [Swarm.step, h.toConsistent.find?_id hc hid] at hexact
    exact not_exact_closed h hc hd hpeer hne hexact
  | subscription peer e => trivial
  | join subnet => trivial
  | leave subnet => trivial

/-- The books are exact in every state of a run if and only if all its events are tidy. -/
theorem bookkeeping_exact_iff (isDynamicTargetPeers : Bool) (targetPeers : Option ℕ)
    (es : List (SwarmEvent Peer)) :
    (∀ before after, es = before ++ after →
      (Machine.run (step isDynamicTargetPeers) (new targetPeers) before).Exact) ↔
    Machine.Steps (step isDynamicTargetPeers) Tidy (new targetPeers) es := by
  constructor
  · intro hexact
    induction es using List.reverseRecOn with
    | nil => trivial
    | append_singleton es e ih =>
      have hes := ih fun before after heq =>
        hexact before (after ++ [e]) (by rw [heq, List.append_assoc])
      have hkept := Machine.invariant (kept_new targetPeers)
        (fun w e htidy hw => Kept.step isDynamicTargetPeers hw htidy) hes
      have hlast := hexact (es ++ [e]) [] (List.append_nil _).symm
      rw [Machine.run_concat, exact_step_iff isDynamicTargetPeers hkept] at hlast
      exact Machine.steps_concat.mpr ⟨hes, hlast⟩
  · rintro hsteps before after rfl
    exact (Machine.invariant (kept_new targetPeers)
      (fun w e htidy hw => Kept.step isDynamicTargetPeers hw htidy)
      (Machine.steps_append.mp hsteps).1).exact

end Swarm

namespace Sample

def subnetFive : Surroundings ℕ where
  lifecycle := .normal ⟨.alan, 0, ⟨List.replicate 4 5, rfl⟩⟩
  enr _ := some (Bitfield.zero.set 5 true)

/-- Subnet 5 is needed, so a second connection of a peer is let in beyond the limits.  When it
closes the peer counts as not connected, although its first connection is open. -/
theorem bookkeeping_forgets_open_peer :
    let es := [.join 5, .connectionEstablished 1 true subnetFive,
      .connectionEstablished 1 false subnetFive, .connectionClosed 1]
    Machine.Steps (Swarm.step true) Swarm.Admitted (Swarm.new none) es ∧
      (Machine.run (Swarm.step true) (Swarm.new none) es).openPeers = {1} ∧
      (Machine.run (Swarm.step true) (Swarm.new none) es).manager.connected = ∅ ∧
      (Machine.run (Swarm.step true) (Swarm.new none) es).manager.inboundCount = 0 ∧
      (Machine.run (Swarm.step true) (Swarm.new none) es).manager.outboundCount = 1 := by
  decide +kernel

end Sample

end Anchor
