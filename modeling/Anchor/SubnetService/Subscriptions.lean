import Mathlib
import Anchor.Eth.Chain
import Anchor.PeerManager.Bookkeeping
import Anchor.SubnetService.Subnet

/-!
# Subscriptions to subnets

The subnet service keeps, for every fork that it tracks, the subnets that it is
subscribed to.  A change of the database or of the lifecycle of the forks makes it
compute the subnets anew; for the difference it tells the network which topics to
subscribe to and which to leave.  The message rates that it also sends concern the scores
of topics only.
-/

namespace Anchor

open Ssz

/-! ## Topics -/

def alanTopicPrefix : String := "ssv.v2."

namespace Fork

def name : Fork → String
  | alan => "alan"
  | boole => "boole"

def topicPrefix (networkName : String) : Fork → String
  | alan => alanTopicPrefix
  | fork => "/ssv/" ++ networkName ++ "/" ++ fork.name ++ "/"

end Fork

def createTopic (start : String) (subnet : ℕ) : String := start ++ subnet.repr

theorem createTopic_alan_ne_boole (networkName : String) (s s' : ℕ) :
    createTopic (Fork.alan.topicPrefix networkName) s ≠
      createTopic (Fork.boole.topicPrefix networkName) s' := by
  intro h
  have hlist := congrArg String.toList h
  simp [createTopic, Fork.topicPrefix, alanTopicPrefix, String.toList_append] at hlist

theorem createTopic_inj {networkName : String} {fork fork' : Fork} {s s' : ℕ} :
    createTopic (fork.topicPrefix networkName) s =
      createTopic (fork'.topicPrefix networkName) s' ↔ fork = fork' ∧ s = s' := by
  constructor
  · intro h
    cases fork <;> cases fork'
    · exact ⟨rfl, Nat.repr_injective ((String.append_right_inj _).mp h)⟩
    · exact absurd h (createTopic_alan_ne_boole _ _ _)
    · exact absurd h.symm (createTopic_alan_ne_boole _ _ _)
    · exact ⟨rfl, Nat.repr_injective ((String.append_right_inj _).mp h)⟩
  · rintro ⟨rfl, rfl⟩
    rfl

inductive TopicEvent where
  | subscribe (topic : String) (subnet : ℕ)
  | unsubscribe (topic : String) (subnet : ℕ)
deriving DecidableEq

/-! ## The service -/

structure Walk (α : Type) where
  list : Finset α → List α
  nodup : ∀ s, (list s).Nodup
  mem_iff : ∀ s x, x ∈ list s ↔ x ∈ s

/-- The subnets of every fork are a set of their own. -/
structure IterationOrder where
  forks : Walk Fork
  subnets : Fork → Walk ℕ

/-- The subnets subscribed to in every fork that is tracked; `forks` of the source, where the
configuration of a fork stands with them. -/
abbrev ServiceState := Fork → Option (Finset ℕ)

namespace ServiceState

def tracked (st : ServiceState) : Finset Fork :=
  ForkSchedule.allForks.toFinset.filter fun fork => (st fork).isSome

def subnets (st : ServiceState) (fork : Fork) : Finset ℕ := (st fork).getD ∅

/-- Only the given forks are tracked afterwards; those removed are returned. -/
def setSubscribedForks (st : ServiceState) (order : IterationOrder) (forks : List Fork) :
    ServiceState × List Fork :=
  (fun fork => if fork ∈ forks then some (st.subnets fork) else none,
    order.forks.list (st.tracked.filter (· ∉ forks)))

end ServiceState

structure SubscribingService extends SubnetService where
  networkName : String
  subscribeAllSubnets : Bool

namespace SubscribingService

variable {C : Type} (service : SubscribingService)

def topic (fork : Fork) (subnet : ℕ) : String :=
  createTopic (fork.topicPrefix service.networkName) subnet

def sendUnsubscribes (fork : Fork) (subnets : List ℕ) : List TopicEvent :=
  subnets.map fun subnet => .unsubscribe (service.topic fork subnet) subnet

def sendSubscribes (fork : Fork) (subnets : List ℕ) : List TopicEvent :=
  subnets.map fun subnet => .subscribe (service.topic fork subnet) subnet

def onLifecycleTransition (order : IterationOrder) (new : ForkLifecycle) (st : ServiceState) :
    ServiceState × List TopicEvent :=
  let (st', removed) := st.setSubscribedForks order new.relevantForks
  (st', removed.flatMap fun fork =>
    service.sendUnsubscribes fork ((order.subnets fork).list (st.subnets fork)))

def subnetSource (database : Database.NetworkState C) : SubnetGenerator :=
  if service.subscribeAllSubnets then .all else .committeesFromNetworkState database

/-- The target subnets of a fork; if there are none for an error, the fork keeps its subnets. -/
def targetSubnets (database : Database.NetworkState C) (st : ServiceState) (fork : Fork) :
    Finset ℕ :=
  match (service.subnetSource database).generateSubnets service.sha256 fork with
  | .ok subnets => subnets
  | .error _ => st.subnets fork

def handleSubnetChangesForFork (order : IterationOrder) (fork : Fork)
    (currentlySubscribed targetSubnets : Finset ℕ) : List TopicEvent :=
  service.sendUnsubscribes fork
      ((order.subnets fork).list (currentlySubscribed \ targetSubnets)) ++
    service.sendSubscribes fork ((order.subnets fork).list (targetSubnets \ currentlySubscribed))

/-- The forks are handled one after the other, each for itself. -/
def handleSubnetChanges (database : Database.NetworkState C) (order : IterationOrder)
    (st : ServiceState) : ServiceState × List TopicEvent :=
  (fun fork => (st fork).map fun _ => service.targetSubnets database st fork,
    (order.forks.list st.tracked).flatMap fun fork =>
      service.handleSubnetChangesForFork order fork (st.subnets fork)
        (service.targetSubnets database st fork))

def changeLifecycle (database : Database.NetworkState C) (order : IterationOrder)
    (new : ForkLifecycle) (st : ServiceState) : ServiceState × List TopicEvent :=
  let (st', events) := service.onLifecycleTransition order new st
  let (st'', events') := service.handleSubnetChanges database order st'
  (st'', events ++ events')

end SubscribingService

/-! ## Runs -/

/-- What wakes the service, with the database that it then reads. -/
inductive ServiceInput (C : Type) where
  | databaseChanged (database : Database.NetworkState C) (order : IterationOrder)
  | lifecycleChanged (lifecycle : ForkLifecycle) (database : Database.NetworkState C)
      (order : IterationOrder)

namespace ServiceInput

variable {C : Type}

def database : ServiceInput C → Database.NetworkState C
  | .databaseChanged database _ | .lifecycleChanged _ database _ => database

def lifecycle? : ServiceInput C → Option ForkLifecycle
  | .databaseChanged .. => none
  | .lifecycleChanged lifecycle .. => some lifecycle

/-- The database as it was last, and the lifecycle received last. -/
def lastDatabase (initial : Database.NetworkState C) (inputs : List (ServiceInput C)) :
    Database.NetworkState C :=
  (inputs.map database).getLastD initial

def lastLifecycle (initial : ForkLifecycle) (inputs : List (ServiceInput C)) : ForkLifecycle :=
  (inputs.filterMap lifecycle?).getLastD initial

theorem lastDatabase_concat (initial : Database.NetworkState C) (inputs : List (ServiceInput C))
    (input : ServiceInput C) : lastDatabase initial (inputs ++ [input]) = input.database := by
  simp [lastDatabase]

theorem lastLifecycle_concat (initial : ForkLifecycle) (inputs : List (ServiceInput C))
    (input : ServiceInput C) :
    lastLifecycle initial (inputs ++ [input]) =
      input.lifecycle?.getD (lastLifecycle initial inputs) := by
  cases input <;> simp [lastLifecycle, lifecycle?]

end ServiceInput

structure ServiceRun where
  state : ServiceState
  sent : List TopicEvent

namespace ServiceRun

variable {C : Type} (service : SubscribingService)

/-- `initial_service_state`. -/
def start (lifecycle : ForkLifecycle) (database : Database.NetworkState C)
    (order : IterationOrder) : ServiceRun :=
  let (state, events) := service.changeLifecycle database order lifecycle fun _ => none
  ⟨state, events⟩

/-- A node that subscribes to all subnets does not wait for changes of the database. -/
def step (w : ServiceRun) : ServiceInput C → ServiceRun
  | .databaseChanged database order =>
    if service.subscribeAllSubnets then w
    else
      let (state, events) := service.handleSubnetChanges database order w.state
      ⟨state, w.sent ++ events⟩
  | .lifecycleChanged lifecycle database order =>
    let (state, events) := service.changeLifecycle database order lifecycle w.state
    ⟨state, w.sent ++ events⟩

end ServiceRun

/-! ## Events as changes of what is held -/

namespace ServiceState

variable {st : ServiceState} {fork : Fork} {s : ℕ}

def held (st : ServiceState) : Finset (Fork × ℕ) :=
  ForkSchedule.allForks.toFinset.biUnion fun fork => (st.subnets fork).image (Prod.mk fork)

theorem mem_allForks (fork : Fork) : fork ∈ ForkSchedule.allForks := by
  cases fork <;> decide

theorem mem_held : (fork, s) ∈ st.held ↔ s ∈ st.subnets fork := by
  simp [held, mem_allForks]

theorem mem_tracked : fork ∈ st.tracked ↔ (st fork).isSome := by
  simp [tracked, mem_allForks]

theorem subnets_of_not_tracked (h : fork ∉ st.tracked) : st.subnets fork = ∅ := by
  rw [mem_tracked, Option.not_isSome_iff_eq_none] at h
  rw [subnets, h, Option.getD_none]

end ServiceState

/-- The events lead from one set of subscriptions to another one, and are all due when they come:
no subnet is joined twice, none is left that is not subscribed to. -/
inductive Emits (service : SubscribingService) :
    Finset (Fork × ℕ) → List TopicEvent → Finset (Fork × ℕ) → Prop where
  | nil (held : Finset (Fork × ℕ)) : Emits service held [] held
  | subscribe {held held' : Finset (Fork × ℕ)} {events : List TopicEvent} {fork : Fork}
      {subnet : ℕ} (hbound : subnet < subnetCount) (habsent : (fork, subnet) ∉ held)
      (hrest : Emits service (insert (fork, subnet) held) events held') :
      Emits service held (.subscribe (service.topic fork subnet) subnet :: events) held'
  | unsubscribe {held held' : Finset (Fork × ℕ)} {events : List TopicEvent} {fork : Fork}
      {subnet : ℕ} (hpresent : (fork, subnet) ∈ held)
      (hrest : Emits service (held.erase (fork, subnet)) events held') :
      Emits service held (.unsubscribe (service.topic fork subnet) subnet :: events) held'

namespace Emits

variable {service : SubscribingService} {held held' held'' : Finset (Fork × ℕ)}
  {events events' : List TopicEvent} {fork : Fork}

theorem append (h : Emits service held events held') (h' : Emits service held' events' held'') :
    Emits service held (events ++ events') held'' := by
  induction h with
  | nil held => exact h'
  | subscribe hbound habsent hrest ih => exact .subscribe hbound habsent (ih h')
  | unsubscribe hpresent hrest ih => exact .unsubscribe hpresent (ih h')

theorem sendUnsubscribes {subnets : List ℕ} (hnodup : subnets.Nodup)
    (hpresent : ∀ s ∈ subnets, (fork, s) ∈ held)
    (hheld : ∀ p, p ∈ held' ↔ p ∈ held ∧ ¬(p.1 = fork ∧ p.2 ∈ subnets)) :
    Emits service held (service.sendUnsubscribes fork subnets) held' := by
  induction subnets generalizing held with
  | nil =>
    obtain rfl : held' = held := by
      ext p
      simp [hheld]
    exact .nil held'
  | cons subnet subnets ih =>
    obtain ⟨hnot, hnodup'⟩ := List.nodup_cons.mp hnodup
    refine .unsubscribe (hpresent subnet List.mem_cons_self) (ih hnodup' ?_ ?_)
    · intro s hs
      refine Finset.mem_erase.mpr ⟨?_, hpresent s (List.mem_cons_of_mem _ hs)⟩
      rintro ⟨⟩
      exact hnot hs
    · intro p
      grind

theorem sendSubscribes {subnets : List ℕ} (hnodup : subnets.Nodup)
    (hbound : ∀ s ∈ subnets, s < subnetCount) (habsent : ∀ s ∈ subnets, (fork, s) ∉ held)
    (hheld : ∀ p, p ∈ held' ↔ p ∈ held ∨ p.1 = fork ∧ p.2 ∈ subnets) :
    Emits service held (service.sendSubscribes fork subnets) held' := by
  induction subnets generalizing held with
  | nil =>
    obtain rfl : held' = held := by
      ext p
      simp [hheld]
    exact .nil held'
  | cons subnet subnets ih =>
    obtain ⟨hnot, hnodup'⟩ := List.nodup_cons.mp hnodup
    refine .subscribe (hbound subnet List.mem_cons_self) (habsent subnet List.mem_cons_self)
      (ih hnodup' (fun s hs => hbound s (List.mem_cons_of_mem _ hs)) ?_ ?_)
    · intro s hs
      rw [Finset.mem_insert, not_or]
      refine ⟨?_, habsent s (List.mem_cons_of_mem _ hs)⟩
      rintro ⟨⟩
      exact hnot hs
    · intro p
      grind

variable {order : IterationOrder}

theorem handleSubnetChangesForFork {old new : Finset ℕ} (hbound : ∀ s ∈ new, s < subnetCount)
    (hold : ∀ s, (fork, s) ∈ held ↔ s ∈ old)
    (hheld : ∀ p, p ∈ held' ↔ if p.1 = fork then p.2 ∈ new else p ∈ held) :
    Emits service held (service.handleSubnetChangesForFork order fork old new) held' := by
  -- Between the two lists of events, the subnets are those both before and after.
  have hleft : Emits service held
      (service.sendUnsubscribes fork ((order.subnets fork).list (old \ new)))
      (held.filter fun p => p.1 = fork → p.2 ∈ new) := by
    refine sendUnsubscribes (Walk.nodup _ _) ?_ ?_
    · intro s hs
      exact (hold s).mpr (Finset.mem_sdiff.mp ((Walk.mem_iff _ _ _).mp hs)).1
    · intro p
      grind [Walk.mem_iff]
  refine hleft.append (sendSubscribes (Walk.nodup _ _) ?_ ?_ ?_)
  · intro s hs
    exact hbound s (Finset.mem_sdiff.mp ((Walk.mem_iff _ _ _).mp hs)).1
  · intro s hs hin
    exact (Finset.mem_sdiff.mp ((Walk.mem_iff _ _ _).mp hs)).2
      ((hold s).mp (Finset.mem_filter.mp hin).1)
  · intro p
    grind [Walk.mem_iff]

theorem changes {forks : List Fork} {old new : Fork → Finset ℕ} (hnodup : forks.Nodup)
    (hbound : ∀ fork, ∀ s ∈ new fork, s < subnetCount)
    (hold : ∀ fork ∈ forks, ∀ s, (fork, s) ∈ held ↔ s ∈ old fork)
    (hheld : ∀ p, p ∈ held' ↔ if p.1 ∈ forks then p.2 ∈ new p.1 else p ∈ held) :
    Emits service held (forks.flatMap fun fork =>
      service.handleSubnetChangesForFork order fork (old fork) (new fork)) held' := by
  induction forks generalizing held with
  | nil =>
    obtain rfl : held' = held := by
      ext p
      simp [hheld]
    exact .nil held'
  | cons fork forks ih =>
    obtain ⟨hnot, hnodup'⟩ := List.nodup_cons.mp hnodup
    obtain ⟨mid, hmid⟩ : ∃ mid : Finset (Fork × ℕ),
        ∀ p, p ∈ mid ↔ if p.1 = fork then p.2 ∈ new fork else p ∈ held := by
      refine ⟨held.filter (·.1 ≠ fork) ∪ (new fork).image (Prod.mk fork), fun p => ?_⟩
      grind
    refine append (handleSubnetChangesForFork (hbound fork) (hold fork List.mem_cons_self) hmid)
      (ih hnodup' ?_ ?_)
    · intro fork' hfork' s
      rw [hmid, if_neg, hold fork' (List.mem_cons_of_mem _ hfork')]
      rintro rfl
      exact hnot hfork'
    · intro p
      grind

end Emits

namespace SubscribingService

variable {C : Type} (service : SubscribingService) (database : Database.NetworkState C)
  (order : IterationOrder)

theorem handleSubnetChangesForFork_empty (fork : Fork) (subnets : Finset ℕ) :
    service.handleSubnetChangesForFork order fork subnets ∅ =
      service.sendUnsubscribes fork ((order.subnets fork).list subnets) := by
  have hnil : (order.subnets fork).list ∅ = [] :=
    List.eq_nil_iff_forall_not_mem.mpr fun s hs =>
      Finset.notMem_empty s ((Walk.mem_iff _ _ _).mp hs)
  rw [handleSubnetChangesForFork, Finset.sdiff_empty, Finset.empty_sdiff, hnil, sendSubscribes,
    List.map_nil, List.append_nil]

theorem emits_onLifecycleTransition (new : ForkLifecycle) (st : ServiceState) :
    Emits service st.held (service.onLifecycleTransition order new st).2
      (service.onLifecycleTransition order new st).1.held := by
  change Emits service st.held (List.flatMap _ (order.forks.list _)) _
  simp only [← handleSubnetChangesForFork_empty]
  refine Emits.changes (Walk.nodup _ _) (fun _ s hs => absurd hs (Finset.notMem_empty s))
    (fun _ _ _ => ServiceState.mem_held) fun p => ?_
  obtain ⟨fork, s⟩ := p
  simp only [Walk.mem_iff, Finset.mem_filter, ServiceState.mem_held]
  change s ∈ Option.getD (if fork ∈ new.relevantForks then some (st.subnets fork) else none) ∅ ↔ _
  by_cases htracked : fork ∈ st.tracked
  · by_cases hrelevant : fork ∈ new.relevantForks <;> simp [htracked, hrelevant]
  · by_cases hrelevant : fork ∈ new.relevantForks <;>
      simp [htracked, hrelevant, ServiceState.subnets_of_not_tracked htracked]

def Targets (fork : Fork) (subnets : Finset ℕ) : Prop :=
  (service.subnetSource database).generateSubnets service.sha256 fork = .ok subnets

variable {service} in
theorem targets_all_iff (hall : service.subscribeAllSubnets = true)
    {database database' : Database.NetworkState C} {fork : Fork} {subnets : Finset ℕ} :
    service.Targets database fork subnets ↔ service.Targets database' fork subnets := by
  simp only [Targets, subnetSource, hall, if_true]

def Bounded (st : ServiceState) : Prop := ∀ fork, ∀ s ∈ st.subnets fork, s < subnetCount

theorem Bounded.targetSubnets {st : ServiceState} (h : Bounded st) (fork : Fork) :
    ∀ s ∈ service.targetSubnets database st fork, s < subnetCount := by
  unfold SubscribingService.targetSubnets
  split
  · rename_i hok
    exact fun s hs => SubnetGenerator.lt_of_mem_generateSubnets hok hs
  · exact h fork

theorem subnets_handleSubnetChanges (st : ServiceState) (fork : Fork) :
    (service.handleSubnetChanges database order st).1.subnets fork =
      if fork ∈ st.tracked then service.targetSubnets database st fork else ∅ := by
  simp only [ServiceState.mem_tracked]
  cases h : st fork <;> simp [handleSubnetChanges, ServiceState.subnets, h]

theorem emits_handleSubnetChanges {st : ServiceState} (h : Bounded st) :
    Emits service st.held (service.handleSubnetChanges database order st).2
      (service.handleSubnetChanges database order st).1.held := by
  refine Emits.changes (Walk.nodup _ _) (h.targetSubnets service database)
    (fun _ _ _ => ServiceState.mem_held) fun p => ?_
  obtain ⟨fork, s⟩ := p
  simp only [Walk.mem_iff, ServiceState.mem_held, subnets_handleSubnetChanges]
  split_ifs with htracked
  · rfl
  · rw [ServiceState.subnets_of_not_tracked htracked]

end SubscribingService

/-! ## What a run keeps -/

namespace ServiceRun

variable {C : Type} (service : SubscribingService) (lifecycle : ForkLifecycle)
  (database : Database.NetworkState C)

/-- The events lead to the subscriptions, the forks tracked are those of the lifecycle, and what
they are subscribed to are their target subnets. -/
structure Consistent (w : ServiceRun) : Prop where
  emits : Emits service ∅ w.sent w.state.held
  bounded : SubscribingService.Bounded w.state
  tracks : ∀ fork, fork ∈ w.state.tracked ↔ fork ∈ lifecycle.relevantForks
  targets : ∀ fork ∈ w.state.tracked, ∀ subnets,
    service.Targets database fork subnets → w.state.subnets fork = subnets

variable {service} (order : IterationOrder)

theorem consistent_handleSubnetChanges (st : ServiceState)
    {sent : List TopicEvent} (hsent : Emits service ∅ sent st.held)
    (hbounded : SubscribingService.Bounded st)
    (htracks : ∀ fork, fork ∈ st.tracked ↔ fork ∈ lifecycle.relevantForks) :
    Consistent service lifecycle database ⟨(service.handleSubnetChanges database order st).1,
      sent ++ (service.handleSubnetChanges database order st).2⟩ := by
  have htracked : ∀ fork, fork ∈ (service.handleSubnetChanges database order st).1.tracked ↔
      fork ∈ st.tracked := by
    intro fork
    rw [ServiceState.mem_tracked, ServiceState.mem_tracked]
    exact Bool.eq_iff_iff.mp (Option.isSome_map ..)
  refine ⟨hsent.append (service.emits_handleSubnetChanges database order hbounded), ?_,
    fun fork => (htracked fork).trans (htracks fork), ?_⟩
  · intro fork s hs
    rw [SubscribingService.subnets_handleSubnetChanges] at hs
    split_ifs at hs
    · exact hbounded.targetSubnets service database fork s hs
    · exact absurd hs (Finset.notMem_empty s)
  · intro fork hfork subnets hsubnets
    have hmem := (htracked fork).mp hfork
    change (service.handleSubnetChanges database order st).1.subnets fork = subnets
    rw [SubscribingService.subnets_handleSubnetChanges, if_pos hmem,
      SubscribingService.targetSubnets, show _ = Except.ok subnets from hsubnets]

theorem consistent_changeLifecycle {st : ServiceState}
    (sent : List TopicEvent) (hsent : Emits service ∅ sent st.held)
    (hbounded : SubscribingService.Bounded st) :
    Consistent service lifecycle database
      ⟨(service.changeLifecycle database order lifecycle st).1,
        sent ++ (service.changeLifecycle database order lifecycle st).2⟩ := by
  have hafter := consistent_handleSubnetChanges lifecycle database order
    (service.onLifecycleTransition order lifecycle st).1
    (hsent.append (service.emits_onLifecycleTransition order lifecycle st)) ?_ ?_
  · rw [List.append_assoc] at hafter
    exact hafter
  · intro fork s hs
    by_cases hrelevant : fork ∈ lifecycle.relevantForks
    · refine hbounded fork s ?_
      simpa [SubscribingService.onLifecycleTransition, ServiceState.setSubscribedForks,
        ServiceState.subnets, hrelevant] using hs
    · simp [SubscribingService.onLifecycleTransition, ServiceState.setSubscribedForks,
        ServiceState.subnets, hrelevant] at hs
  · intro fork
    rw [ServiceState.mem_tracked]
    by_cases hrelevant : fork ∈ lifecycle.relevantForks <;>
      simp [SubscribingService.onLifecycleTransition, ServiceState.setSubscribedForks, hrelevant]

theorem consistent_run (inputs : List (ServiceInput C)) :
    Consistent service (ServiceInput.lastLifecycle lifecycle inputs)
      (ServiceInput.lastDatabase database inputs)
      (Machine.run (step service) (start service lifecycle database order) inputs) := by
  have hstart : Consistent service lifecycle database
      (start service lifecycle database order) := by
    have hempty : ServiceState.held (fun _ => none) = ∅ := by
      ext ⟨fork, s⟩
      rw [ServiceState.mem_held]
      simp [ServiceState.subnets]
    refine consistent_changeLifecycle lifecycle database order [] ?_ ?_
    · rw [hempty]
      exact .nil ∅
    · exact fun fork s hs => absurd hs (Finset.notMem_empty s)
  refine Machine.history (P := fun _ _ => True)
    (J := fun inputs => Consistent service (ServiceInput.lastLifecycle lifecycle inputs)
      (ServiceInput.lastDatabase database inputs))
    hstart (fun inputs w input _ h => ?_) (Machine.steps_of_forall (fun _ _ _ => trivial) _)
  cases input with
  | databaseChanged database' order =>
    rw [ServiceInput.lastDatabase_concat, ServiceInput.lastLifecycle_concat, step]
    split_ifs with hall
    · exact ⟨h.emits, h.bounded, h.tracks, fun fork hfork subnets hsubnets =>
        h.targets fork hfork subnets ((SubscribingService.targets_all_iff hall).mp hsubnets)⟩
    · exact consistent_handleSubnetChanges _ _ order w.state h.emits h.bounded h.tracks
  | lifecycleChanged lifecycle' database' order =>
    rw [ServiceInput.lastDatabase_concat, ServiceInput.lastLifecycle_concat]
    exact consistent_changeLifecycle _ _ order w.sent h.emits h.bounded

end ServiceRun

namespace NetworkDatabase.Sound

variable {C : Type} [DecidableEq C] {env : EventEnv C} {db : NetworkDatabase C}
  (h : db.Sound env)
include h

theorem clusterMembers_ne_nil {c : C} {cluster : Cluster C}
    (hcluster : db.state.clusters.primary c = some cluster) :
    cluster.clusterMembers.toList ≠ [] := by
  have hmembers := h.mirrors.clusters_valued.clusterMembers c cluster hcluster
  obtain ⟨row, hrow, rfl⟩ : db.sql.HasCluster c :=
    (h.mirrors.clusters_indexed.primary c).mp (Option.isSome_of_eq_some hcluster)
  obtain ⟨ids, hne, -, -, hids⟩ := h.wellFormed.cluster_members row hrow
  obtain ⟨id, hid⟩ := List.exists_mem_of_ne_nil ids hne
  exact List.ne_nil_of_mem ((hmembers id).mpr ((hids id).mpr hid))

theorem exists_targets (service : SubscribingService) (fork : Fork) :
    ∃ subnets, service.Targets db.state fork subnets := by
  unfold SubscribingService.Targets SubscribingService.subnetSource
  split_ifs with hall
  · exact ⟨_, rfl⟩
  · refine SubnetGenerator.exists_generateSubnets _ _ fun committee hcommittee => ?_
    obtain ⟨c, -, hmem⟩ := Finset.mem_biUnion.mp hcommittee
    cases hcluster : db.state.clusters.primary c with
    | none => simp [hcluster] at hmem
    | some cluster =>
      have hcommittee' : committee = cluster.clusterMembers.toList := by
        rw [hcluster] at hmem
        cases hliquidated : cluster.liquidated with
        | true => simp [Option.filter, hliquidated] at hmem
        | false => simpa [Option.filter, hliquidated] using hmem
      rw [hcommittee']
      exact h.clusterMembers_ne_nil hcluster

end NetworkDatabase.Sound

end Anchor
