import Mathlib
import Anchor.PeerManager.Bookkeeping

/-!
# The cap on connected peers

The limits count the connections they were told about, and a new target starts the count
anew although connections are open.  So the number of connected peers stays below the
largest limit with priority only if every change of the target leaves room: the peers that
are connected then, together with all connections that the new limits let in.
-/

namespace Anchor

namespace Swarm

variable {Peer : Type} [DecidableEq Peer] {w : Swarm Peer}

def tracked (w : Swarm Peer) : Finset ℕ :=
  w.manager.connectionLimits.inbound ∪ w.manager.connectionLimits.outbound

def untrackedPeers (w : Swarm Peer) : Finset Peer :=
  ((w.opened.filter fun c => c.id ∉ w.tracked).map Connection.peer).toFinset

/-- The peers that are connected and all connections of the limits for a target fit. -/
def HasRoom (w : Swarm Peer) (target : ℕ) : Prop :=
  target = w.manager.targetPeers ∨
    w.openPeers.card + (ConnectionLimits.ofTarget target).maxEstablished ≤
      max w.peak (maxWithPriority target)

/-- A connection that closes is the last one of its peer, and a new target leaves room. -/
def Roomy (w : Swarm Peer) : SwarmEvent Peer → Prop
  | .connectionClosed id => ∀ c ∈ w.opened, c.id = id → ∀ c' ∈ w.opened, c'.peer = c.peer → c' = c
  | .join subnet => w.HasRoom
      (PeerManager.calculateTargetPeers (insert subnet w.peerManager.neededSubnets).card)
  | .leave subnet => w.HasRoom
      (PeerManager.calculateTargetPeers (w.peerManager.neededSubnets.erase subnet).card)
  | .connectionEstablished _ _ _ | .subscription _ _ => True

instance (w : Swarm Peer) (target : ℕ) : Decidable (w.HasRoom target) :=
  inferInstanceAs (Decidable (_ ∨ _))

instance (w : Swarm Peer) : ∀ e, Decidable (w.Roomy e)
  | .connectionClosed id => inferInstanceAs (Decidable (∀ c ∈ w.opened, c.id = id →
      ∀ c' ∈ w.opened, c'.peer = c.peer → c' = c))
  | .join _ | .leave _ => inferInstanceAs (Decidable (w.HasRoom _))
  | .connectionEstablished _ _ _ | .subscription _ _ => inferInstanceAs (Decidable True)

/-- The connected peers that the limits do not know leave room for all that they let in. -/
structure Capped (w : Swarm Peer) : Prop extends Consistent w where
  priority_le : w.manager.maxWithPriorityPeers ≤ w.peak
  room : w.untrackedPeers.card + w.manager.connectionLimits.limits.maxEstablished ≤ w.peak
  cap : w.openPeers.card ≤ w.peak

theorem mem_untrackedPeers {peer : Peer} :
    peer ∈ w.untrackedPeers ↔ ∃ c ∈ w.opened, c.id ∉ w.tracked ∧ c.peer = peer := by
  simp [untrackedPeers, and_assoc]

theorem untrackedPeers_subset (w : Swarm Peer) : w.untrackedPeers ⊆ w.openPeers := by
  intro peer hpeer
  obtain ⟨c, hc, -, rfl⟩ := mem_untrackedPeers.mp hpeer
  exact mem_openPeers.mpr ⟨c, hc, rfl⟩

theorem card_openPeers_le (hnodup : (w.opened.map Connection.id).Nodup) :
    w.openPeers.card ≤ w.untrackedPeers.card +
      (w.manager.connectionLimits.inbound.card + w.manager.connectionLimits.outbound.card) := by
  let known := w.opened.filter fun c => c.id ∈ w.tracked
  have hsubset : w.openPeers ⊆ w.untrackedPeers ∪ (known.map Connection.peer).toFinset := by
    intro peer hpeer
    obtain ⟨c, hc, rfl⟩ := mem_openPeers.mp hpeer
    by_cases htracked : c.id ∈ w.tracked
    · refine Finset.mem_union_right _ (List.mem_toFinset.mpr (List.mem_map_of_mem ?_))
      exact List.mem_filter.mpr ⟨hc, decide_eq_true htracked⟩
    · exact Finset.mem_union_left _ (mem_untrackedPeers.mpr ⟨c, hc, htracked, rfl⟩)
  have hids : (known.map Connection.id).Nodup :=
    hnodup.sublist (List.Sublist.map _ List.filter_sublist)
  have hknown : known.length ≤ w.tracked.card := by
    rw [← List.length_map Connection.id, ← List.toFinset_card_of_nodup hids]
    refine Finset.card_le_card fun id hid => ?_
    obtain ⟨c, hc, rfl⟩ := List.mem_map.mp (List.mem_toFinset.mp hid)
    exact of_decide_eq_true (List.mem_filter.mp hc).2
  calc
    w.openPeers.card ≤ (w.untrackedPeers ∪ (known.map Connection.peer).toFinset).card :=
      Finset.card_le_card hsubset
    _ ≤ w.untrackedPeers.card + (known.map Connection.peer).toFinset.card :=
      Finset.card_union_le _ _
    _ ≤ w.untrackedPeers.card + w.tracked.card := by
      gcongr
      exact (List.toFinset_card_le _).trans (by rwa [List.length_map])
    _ ≤ _ := by
      gcongr
      exact Finset.card_union_le _ _

theorem capped_new (targetPeers : Option ℕ) : Capped (new targetPeers : Swarm Peer) where
  toConsistent := consistent_new targetPeers
  priority_le := le_rfl
  room := by
    rw [show (new targetPeers : Swarm Peer).untrackedPeers = ∅ from rfl, Finset.card_empty,
      zero_add]
    exact maxEstablished_le_maxWithPriority _
  cap := Nat.zero_le _

/-! ## Events -/

theorem untrackedPeers_established_subset (w : Swarm Peer) (peer : Peer) (outbound : Bool) :
    (w.established peer outbound).untrackedPeers ⊆ w.untrackedPeers := by
  have htracked : (w.established peer outbound).tracked = insert w.next w.tracked := by
    ext id
    cases outbound <;> simp [tracked, established, manager, LimitsBehaviour.established]
  intro p hp
  obtain ⟨c, hc, hid, rfl⟩ := mem_untrackedPeers.mp hp
  rw [htracked, Finset.mem_insert, not_or] at hid
  rcases mem_opened_established.mp hc with hc | rfl
  · exact mem_untrackedPeers.mpr ⟨c, hc, hid.2, rfl⟩
  · exact absurd rfl hid.1

theorem Capped.established (h : w.Capped) {peer : Peer} {outbound : Bool}
    {s : Surroundings Peer} (hadmitted : w.Admitted (.connectionEstablished peer outbound s)) :
    (w.established peer outbound).Capped := by
  refine ⟨h.toConsistent.established peer outbound, h.priority_le, ?_, ?_⟩
  · have huntracked := w.untrackedPeers_established_subset peer outbound
    exact (Nat.add_le_add_right (Finset.card_le_card huntracked) _).trans h.room
  · rw [openPeers_established]
    refine (Finset.card_insert_le _ _).trans ?_
    change w.openPeers.card + 1 ≤ w.peak
    have hcard := card_openPeers_le h.nodup
    have hroom := h.room
    have hpriority := h.priority_le
    simp only [Admitted, ConnectionManager.handleEstablishedConnection,
      ConnectionManager.finishEstablishedConnection] at hadmitted
    split_ifs at hadmitted with hlimits
    · -- the limits let the connection in
      have htotal : w.manager.connectionLimits.inbound.card +
          w.manager.connectionLimits.outbound.card <
            w.manager.connectionLimits.limits.maxEstablished := by
        simp only [LimitsBehaviour.allows, decide_eq_true_eq] at hlimits
        exact hlimits.2.2
      omega
    · -- the peer has priority
      have hlt : w.manager.connected.card < w.manager.maxWithPriorityPeers := by
        simp only [decide_eq_true_eq] at hadmitted
        exact hadmitted.1
      rw [h.connected_eq] at hlt
      omega

theorem Capped.closed (h : w.Capped) {c : Connection Peer} (hc : c ∈ w.opened)
    (hsole : ∀ c' ∈ w.opened, c'.peer = c.peer → c' = c) : (w.closed c).Capped := by
  have huntracked : (w.closed c).untrackedPeers ⊆ w.untrackedPeers := by
    intro p hp
    obtain ⟨d, hd, hid, rfl⟩ := mem_untrackedPeers.mp hp
    obtain ⟨hd, hne⟩ := List.mem_filter.mp hd
    refine mem_untrackedPeers.mpr ⟨d, hd, fun htracked => hid ?_, rfl⟩
    have hne : d.id ≠ c.id := by simpa using hne
    simpa [tracked, Swarm.closed, manager, LimitsBehaviour.closed, hne] using htracked
  refine ⟨h.toConsistent.closed hc hsole, h.priority_le, ?_, ?_⟩
  · exact (Nat.add_le_add_right (Finset.card_le_card huntracked) _).trans h.room
  · rw [openPeers_closed hc hsole h.nodup]
    exact (Finset.card_le_card (Finset.erase_subset _ _)).trans h.cap

theorem Capped.subscription (h : w.Capped) (peer : Peer) (e : SubscriptionEvent) :
    (w.subscription peer e).Capped := by
  have hmanager : (w.subscription peer e).manager.connectionLimits = w.manager.connectionLimits ∧
      (w.subscription peer e).manager.maxWithPriorityPeers = w.manager.maxWithPriorityPeers := by
    simp only [Swarm.subscription, manager, ConnectionManager.setPeerSubscribed]
    split_ifs <;> exact ⟨rfl, rfl⟩
  refine ⟨h.toConsistent.subscription peer e, hmanager.2.trans_le h.priority_le, ?_, h.cap⟩
  have huntracked : (w.subscription peer e).untrackedPeers = w.untrackedPeers := by
    unfold untrackedPeers tracked
    rw [hmanager.1]
    rfl
  rw [huntracked, hmanager.1]
  exact h.room

theorem Capped.setNeededSubnets (h : w.Capped) {needed : Finset ℕ}
    (hroom : w.HasRoom (PeerManager.calculateTargetPeers needed.card)) :
    (w.withPeerManager (w.peerManager.setNeededSubnets true needed)).Capped := by
  have hconsistent : (w.withPeerManager (w.peerManager.setNeededSubnets true needed)).Consistent :=
    h.toConsistent.withPeerManager (connected_setNeededSubnets _ _ _)
  have hmanager : (w.withPeerManager (w.peerManager.setNeededSubnets true needed)).manager =
      w.manager.setTargetPeers (PeerManager.calculateTargetPeers needed.card) := rfl
  have hpeak : (w.withPeerManager (w.peerManager.setNeededSubnets true needed)).peak =
      max w.peak (w.manager.setTargetPeers
        (PeerManager.calculateTargetPeers needed.card)).maxWithPriorityPeers := rfl
  have hopened : (w.withPeerManager (w.peerManager.setNeededSubnets true needed)).opened =
      w.opened := rfl
  generalize PeerManager.calculateTargetPeers needed.card = target at hroom hmanager hpeak
  generalize w.withPeerManager (w.peerManager.setNeededSubnets true needed) = w'
    at hconsistent hmanager hpeak hopened ⊢
  have hopen : w'.openPeers = w.openPeers := by rw [openPeers, openPeers, hopened]
  have hcap : w'.openPeers.card ≤ w'.peak := by
    rw [hopen, hpeak]
    exact h.cap.trans (le_max_left _ _)
  by_cases htarget : w.manager.targetPeers = target
  · -- the limits stay
    rw [ConnectionManager.setTargetPeers, if_pos htarget] at hmanager hpeak
    rw [max_eq_left h.priority_le] at hpeak
    have huntracked : w'.untrackedPeers = w.untrackedPeers := by
      rw [untrackedPeers, untrackedPeers, tracked, tracked, hmanager, hopened]
    refine ⟨hconsistent, ?_, ?_, hcap⟩
    · rw [hmanager, hpeak]
      exact h.priority_le
    · rw [huntracked, hmanager, hpeak]
      exact h.room
  · -- the limits start anew
    rw [ConnectionManager.setTargetPeers, if_neg htarget] at hmanager hpeak
    refine ⟨hconsistent, ?_, ?_, hcap⟩
    · rw [hmanager, hpeak]
      exact le_max_right _ _
    · rw [hmanager, hpeak]
      refine (Nat.add_le_add_right (Finset.card_le_card w'.untrackedPeers_subset) _).trans ?_
      rw [hopen]
      exact hroom.resolve_left (Ne.symm htarget)

theorem Capped.step {e : SwarmEvent Peer} (h : w.Capped) (hadmitted : w.Admitted e)
    (hroomy : w.Roomy e) : (w.step true e).Capped := by
  cases e with
  | connectionEstablished peer outbound s => exact h.established hadmitted
  | connectionClosed id =>
    cases hfind : w.opened.find? (·.id = id) with
    | none =>
      rw [Swarm.step, hfind]
      exact h
    | some c =>
      have hc := List.mem_of_find?_eq_some hfind
      have hid : c.id = id := by simpa using List.find?_some hfind
      rw [Swarm.step, hfind]
      exact h.closed hc (hroomy c hc hid)
  | subscription peer e => exact h.subscription peer e
  | join subnet => exact h.setNeededSubnets hroomy
  | leave subnet => exact h.setNeededSubnets hroomy

/-! ## A target without room -/

theorem admitted_dials (limits : ConnectionLimits)
    (hsame : limits.maxEstablishedOutgoing = limits.maxEstablished)
    (hsingle : limits.maxEstablishedPerPeer = 1) (s : Surroundings Peer)
    (henr : ∀ peer, s.enr peer = none) (peers : List Peer) (hnodup : peers.Nodup)
    (hlimits : w.manager.connectionLimits.limits = limits)
    (hinbound : w.manager.connectionLimits.inbound = ∅)
    (houtbound : w.manager.connectionLimits.outbound.card + peers.length ≤ limits.maxEstablished)
    (hfresh : ∀ peer ∈ peers, peer ∉ w.openPeers ∧
      w.manager.connectionLimits.perPeer peer = ∅ ∧ w.manager.observedPeerSubnets peer = none) :
    let es := peers.map fun peer => SwarmEvent.connectionEstablished peer true s
    Machine.Steps (step true) Admitted w es ∧
      (Machine.run (step true) w es).openPeers.card = w.openPeers.card + peers.length ∧
      (Machine.run (step true) w es).peak = w.peak := by
  induction peers generalizing w with
  | nil => exact ⟨trivial, rfl, rfl⟩
  | cons peer peers ih =>
    obtain ⟨hnotMem, hnodup⟩ := List.nodup_cons.mp hnodup
    obtain ⟨hnew, hperPeer, hobserved⟩ := hfresh peer List.mem_cons_self
    rw [List.length_cons] at houtbound
    have hallows : w.manager.connectionLimits.allows peer true = true := by
      simp only [LimitsBehaviour.allows, if_true, hlimits, hinbound, hperPeer, hsingle,
        Finset.card_empty, zero_add, decide_eq_true_eq]
      omega
    have hadmitted : w.Admitted (.connectionEstablished peer true s) := by
      simp only [Admitted, ConnectionManager.handleEstablishedConnection, hallows,
        ConnectionManager.finishEstablishedConnection, if_true,
        ConnectionManager.peerOffersNeededSubnetsWithEnrFallback,
        ConnectionManager.getPeerSubnetsWithEnrFallback,
        ConnectionManager.getPeerSubnetsForLifecycle, hobserved, henr, Option.bind_none,
        Option.or_none, ite_self]
    have hrest : ∀ p ∈ peers, p ≠ peer := fun p hp => ne_of_mem_of_not_mem hp hnotMem
    have hnext := ih (w := w.established peer true) hnodup hlimits ?_ ?_ ?_
    · obtain ⟨hsteps, hcard, hpeak⟩ := hnext
      refine ⟨⟨hadmitted, hsteps⟩, ?_, hpeak⟩
      rw [openPeers_established, Finset.card_insert_of_notMem hnew] at hcard
      simp only [List.map_cons, Machine.run_cons, List.length_cons]
      rw [Swarm.step, hcard]
      omega
    · exact hinbound
    · have hcard : ((w.established peer true).manager.connectionLimits.outbound).card ≤
          w.manager.connectionLimits.outbound.card + 1 := Finset.card_insert_le _ _
      omega
    · intro p hp
      obtain ⟨hopen, hids, hnone⟩ := hfresh p (List.mem_cons_of_mem _ hp)
      refine ⟨?_, ?_, ?_⟩
      · rw [openPeers_established, Finset.mem_insert, not_or]
        exact ⟨hrest p hp, hopen⟩
      · exact (Function.update_of_ne (hrest p hp) _ _).trans hids
      · exact (Function.update_of_ne (hrest p hp) _ _).trans hnone

def FewKnown (w : Swarm Peer) : Prop :=
  ∃ known : Finset Peer, ∀ peer ∉ known,
    peer ∉ w.openPeers ∧ w.manager.observedPeerSubnets peer = none

theorem FewKnown.withPeerManager (h : w.FewKnown) (isDynamicTargetPeers : Bool)
    (needed : Finset ℕ) :
    (w.withPeerManager (w.peerManager.setNeededSubnets isDynamicTargetPeers needed)).FewKnown := by
  obtain ⟨known, hknown⟩ := h
  refine ⟨known, fun peer hpeer => ⟨(hknown peer hpeer).1, ?_⟩⟩
  rw [← (hknown peer hpeer).2]
  simp only [manager, PeerManager.setNeededSubnets, ConnectionManager.setTargetPeers]
  split_ifs <;> rfl

theorem FewKnown.step (isDynamicTargetPeers : Bool) {e : SwarmEvent Peer} (h : w.FewKnown) :
    (w.step isDynamicTargetPeers e).FewKnown := by
  obtain ⟨known, hknown⟩ := h
  cases e with
  | connectionEstablished peer outbound s =>
    refine ⟨insert peer known, fun p hp => ?_⟩
    rw [Finset.mem_insert, not_or] at hp
    obtain ⟨hopen, hnone⟩ := hknown p hp.2
    refine ⟨?_, (Function.update_of_ne hp.1 _ _).trans hnone⟩
    rw [Swarm.step, openPeers_established, Finset.mem_insert, not_or]
    exact ⟨hp.1, hopen⟩
  | connectionClosed id =>
    cases hfind : w.opened.find? (·.id = id) with
    | none =>
      rw [Swarm.step, hfind]
      exact ⟨known, hknown⟩
    | some c =>
      rw [Swarm.step, hfind]
      refine ⟨known, fun p hp => ?_⟩
      obtain ⟨hopen, hnone⟩ := hknown p hp
      refine ⟨fun hp' => hopen ?_, ?_⟩
      · obtain ⟨d, hd, rfl⟩ := mem_openPeers.mp hp'
        exact mem_openPeers.mpr ⟨d, (List.mem_filter.mp hd).1, rfl⟩
      · by_cases hpeer : p = c.peer
        · subst hpeer
          exact Function.update_self ..
        · exact (Function.update_of_ne hpeer _ _).trans hnone
  | subscription peer e =>
    refine ⟨insert peer known, fun p hp => ?_⟩
    rw [Finset.mem_insert, not_or] at hp
    obtain ⟨hopen, hnone⟩ := hknown p hp.2
    refine ⟨hopen, ?_⟩
    by_cases hidx : 128 ≤ e.subnet
    · have hsame : (w.subscription peer e).manager = w.manager :=
        w.manager.setPeerSubscribed_of_le peer e.fork hidx e.subscribed
      rw [Swarm.step, hsame, hnone]
    · simp only [Swarm.step, Swarm.subscription, manager, ConnectionManager.setPeerSubscribed,
        if_neg hidx]
      exact (Function.update_of_ne hp.1 _ _).trans hnone
  | join subnet => exact FewKnown.withPeerManager ⟨known, hknown⟩ isDynamicTargetPeers _
  | leave subnet => exact FewKnown.withPeerManager ⟨known, hknown⟩ isDynamicTargetPeers _

theorem exceeds_of_not_hasRoom [Infinite Peer] (h : w.FewKnown) {needed : Finset ℕ}
    (hroom : ¬ w.HasRoom (PeerManager.calculateTargetPeers needed.card)) :
    let w' := w.withPeerManager (w.peerManager.setNeededSubnets true needed)
    ∃ more, Machine.Steps (step true) Admitted w' more ∧
      (Machine.run (step true) w' more).peak <
        (Machine.run (step true) w' more).openPeers.card := by
  intro w'
  obtain ⟨htarget, hroom⟩ := not_or.mp hroom
  have hmanager : w'.manager = { w.manager with
      targetPeers := PeerManager.calculateTargetPeers needed.card
      maxWithPriorityPeers := maxWithPriority (PeerManager.calculateTargetPeers needed.card)
      connectionLimits := .new (.ofTarget (PeerManager.calculateTargetPeers needed.card)) } :=
    if_neg (Ne.symm htarget)
  have hpeak : w'.peak = max w.peak w'.manager.maxWithPriorityPeers := rfl
  rw [hmanager] at hpeak
  obtain ⟨known, hknown⟩ : w'.FewKnown := h.withPeerManager true needed
  -- as many new peers as the new limits let in
  obtain ⟨fresh, hfresh, hcard⟩ := (Set.Infinite.exists_subset_card_eq
    (Set.toFinite (known : Set Peer)).infinite_compl
    (ConnectionLimits.ofTarget (PeerManager.calculateTargetPeers needed.card)).maxEstablished)
  obtain ⟨hsteps, hopen, hsame⟩ := admitted_dials (w := w')
    (.ofTarget (PeerManager.calculateTargetPeers needed.card)) rfl rfl
    ⟨.normal ⟨.alan, 0, ⟨List.replicate 4 0, rfl⟩⟩, fun _ => none⟩ (fun _ => rfl) fresh.toList
    fresh.nodup_toList (by rw [hmanager]; rfl) (by rw [hmanager]; rfl)
    (by
      rw [hmanager, Finset.length_toList, hcard]
      exact (zero_add _).le)
    (by
      intro peer hpeer
      obtain ⟨hnotOpen, hnone⟩ := hknown peer (hfresh (Finset.mem_toList.mp hpeer))
      exact ⟨hnotOpen, by rw [hmanager]; rfl, hnone⟩)
  refine ⟨_, hsteps, ?_⟩
  rw [hopen, hsame, hpeak, Finset.length_toList, hcard]
  exact not_le.mp hroom

/-- With dynamic target peers, if every change of the target leaves room and every connection
that closes is the last one of its peer, then no more peers are connected than the largest limit
with priority so far.  After a change that leaves no room, connections can exceed it, as there
is no end of peers. -/
theorem connected_le_peak (es : List (SwarmEvent Peer)) :
    (Machine.Steps (step true) (fun w e => w.Admitted e ∧ w.Roomy e) (new none) es →
      (Machine.run (step true) (new none) es).openPeers.card ≤
        (Machine.run (step true) (new none) es).peak) ∧
    (Infinite Peer → Machine.Steps (step true) Admitted (new none) es →
      ∀ e, (∀ id, e ≠ .connectionClosed id) →
        ¬ (Machine.run (step true) (new none) es).Roomy e → ∃ more,
          Machine.Steps (step true) Admitted (new none) (es ++ e :: more) ∧
            (Machine.run (step true) (new none) (es ++ e :: more)).peak <
              (Machine.run (step true) (new none) (es ++ e :: more)).openPeers.card) := by
  constructor
  · intro h
    exact (Machine.invariant (capped_new none) (fun _ _ he hw => Capped.step hw he.1 he.2) h).cap
  · intro _ hes e hclosed hroomy
    have hknown : (Machine.run (step true) (new none) es : Swarm Peer).FewKnown :=
      Machine.invariant ⟨∅, fun _ _ => ⟨Finset.notMem_empty _, rfl⟩⟩
        (fun _ _ _ hw => FewKnown.step true hw) hes
    simp only [Machine.run_append, Machine.run_cons, Machine.steps_append, Machine.Steps]
    cases e with
    | connectionEstablished peer outbound s => exact absurd trivial hroomy
    | connectionClosed id => exact absurd rfl (hclosed id)
    | subscription peer e => exact absurd trivial hroomy
    | join subnet =>
      obtain ⟨more, hsteps, hlt⟩ := exceeds_of_not_hasRoom hknown hroomy
      exact ⟨more, ⟨hes, trivial, hsteps⟩, hlt⟩
    | leave subnet =>
      obtain ⟨more, hsteps, hlt⟩ := exceeds_of_not_hasRoom hknown hroomy
      exact ⟨more, ⟨hes, trivial, hsteps⟩, hlt⟩

end Swarm

namespace Sample

def noRecords : Surroundings ℕ where
  lifecycle := .normal ⟨.alan, 0, ⟨List.replicate 4 6, rfl⟩⟩
  enr _ := none

def dials (peers : List ℕ) : List (SwarmEvent ℕ) :=
  peers.map fun peer => .connectionEstablished peer true noRecords

theorem connected_le_peak_dials :
    (Machine.run (Swarm.step true) (Swarm.new none)
      (dials [1, 2] ++ [.connectionClosed 0, .join 5])).openPeers.card ≤
        (Machine.run (Swarm.step true) (Swarm.new none)
          (dials [1, 2] ++ [.connectionClosed 0, .join 5])).peak :=
  (Swarm.connected_le_peak _).1 (by decide +kernel)

/-- The target is 60 and allows 66 connections.  When they are open, a subnet is joined: the target
is 63 now, and the limits count from zero.  After 17 more connections 83 peers are connected, where
82 is the limit with priority. -/
theorem cap_exceeded :
    let es := dials (List.range 66) ++ [.join 5] ++ dials ((List.range 17).map (100 + ·))
    Machine.Steps (Swarm.step true) Swarm.Admitted (Swarm.new none) es ∧
      (Machine.run (Swarm.step true) (Swarm.new none) es).openPeers.card = 83 ∧
      (Machine.run (Swarm.step true) (Swarm.new none) es).peak = 82 := by
  decide +kernel

end Sample

end Anchor
