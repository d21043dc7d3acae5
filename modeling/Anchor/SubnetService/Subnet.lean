import Mathlib
import Anchor.Database.Mirror
import Anchor.Validator.Run

/-!
# The subnet of a committee

The subnet is computed from the committee id before the fork Boole, and from the ids of
the operators after it.  A node subscribes to the subnets of its clusters, publishes
messages by the committee id it has for a cluster, and checks the subnet of messages it
receives.
-/

namespace Anchor

open Ssz

def subnetCount : ℕ := 128

def ofBe (bytes : Bytes) : ℕ := ofLe bytes.reverse

inductive SubnetCalculationError where
  | emptyOperatorList
deriving DecidableEq

namespace SubnetId

def fromCommitteeAlan (committeeId : CommitteeId) : ℕ := ofBe committeeId.toList % subnetCount

/-- The least hash of an operator id, modulo the number of subnets.  Hashes compare like the
numbers whose big-endian bytes they are. -/
def fromOperators (sha256 : Bytes → Hash256) (operatorIds : List OperatorId) :
    Except SubnetCalculationError ℕ :=
  match (operatorIds.map fun id => ofBe (sha256 (leBytes 8 id.val.toNat)).toList).min? with
  | none => .error .emptyOperatorList
  | some minHash => .ok (minHash % subnetCount)

def fromOperatorsForFork (sha256 : Bytes → Hash256) (operatorIds : List OperatorId) (fork : Fork) :
    Except SubnetCalculationError ℕ :=
  let committeeId := CommitteeId.ofSlice sha256 operatorIds
  match fork with
  | .alan => .ok (fromCommitteeAlan committeeId)
  | .boole => fromOperators sha256 operatorIds

theorem exists_fromOperators (sha256 : Bytes → Hash256) {operatorIds : List OperatorId}
    (h : operatorIds ≠ []) : ∃ subnet, fromOperators sha256 operatorIds = .ok subnet := by
  unfold fromOperators
  split
  · rename_i hmin
    rw [List.min?_eq_none_iff, List.map_eq_nil_iff] at hmin
    exact absurd hmin h
  · exact ⟨_, rfl⟩

theorem lt_of_fromOperatorsForFork {sha256 : Bytes → Hash256} {ids : List OperatorId} {fork : Fork}
    {subnet : ℕ} (h : fromOperatorsForFork sha256 ids fork = .ok subnet) :
    subnet < subnetCount := by
  cases fork with
  | alan =>
    cases h
    exact Nat.mod_lt _ (by decide)
  | boole =>
    simp only [fromOperatorsForFork, fromOperators] at h
    split at h
    · cases h
    · cases h
      exact Nat.mod_lt _ (by decide)

theorem fromOperators_eq_of_perm (sha256 : Bytes → Hash256) {ids ids' : List OperatorId}
    (h : ids.Perm ids') : fromOperators sha256 ids = fromOperators sha256 ids' := by
  have hmin : (ids.map fun id => ofBe (sha256 (leBytes 8 id.val.toNat)).toList).min? =
      (ids'.map fun id => ofBe (sha256 (leBytes 8 id.val.toNat)).toList).min? := by
    ext hash
    simp only [List.min?_eq_some_iff, (h.map _).mem_iff]
  rw [fromOperators, hmin]
  rfl

theorem eq_of_toOption_eq {x y : Except SubnetCalculationError ℕ}
    (h : x.toOption = y.toOption) : x = y := by
  cases x with
  | error e =>
    cases e
    cases y with
    | error e' =>
      cases e'
      rfl
    | ok b => cases h
  | ok a =>
    cases y with
    | error e' => cases h
    | ok b =>
      cases h
      rfl

end SubnetId

/-! ## Subscriptions -/

inductive SubnetGenerator where
  | all
  | committees (committees : Finset (List OperatorId))

namespace SubnetGenerator

variable {C : Type}

/-- Liquidated clusters perform no duties, so their subnets need no subscription. -/
def committeesFromNetworkState (state : Database.NetworkState C) : SubnetGenerator :=
  .committees (state.ownClusters.biUnion fun c =>
    ((state.clusters.primary c).filter fun cluster => !cluster.liquidated).elim ∅
      fun cluster => {cluster.clusterMembers.toList})

/-- The only error is that of a committee without operators. -/
def generateSubnets (sha256 : Bytes → Hash256) (fork : Fork) :
    SubnetGenerator → Except SubnetCalculationError (Finset ℕ)
  | all => .ok (Finset.range subnetCount)
  | committees cs =>
    if ∃ committee ∈ cs, SubnetId.fromOperatorsForFork sha256 committee fork =
      .error .emptyOperatorList
    then .error .emptyOperatorList
    else .ok (cs.biUnion fun committee =>
      (SubnetId.fromOperatorsForFork sha256 committee fork).toOption.toFinset)

theorem mem_generateSubnets {sha256 : Bytes → Hash256} {fork : Fork}
    {state : Database.NetworkState C} {subnets : Finset ℕ} {c : C} {cluster : Cluster C}
    (hown : c ∈ state.ownClusters) (hcluster : state.clusters.primary c = some cluster)
    (hactive : cluster.liquidated = false)
    (h : (committeesFromNetworkState state).generateSubnets sha256 fork = .ok subnets) :
    ∃ subnet ∈ subnets,
      SubnetId.fromOperatorsForFork sha256 cluster.clusterMembers.toList fork = .ok subnet := by
  simp only [committeesFromNetworkState, generateSubnets] at h
  split_ifs at h with herror
  cases h
  have hmem : cluster.clusterMembers.toList ∈ state.ownClusters.biUnion fun c =>
      ((state.clusters.primary c).filter fun cluster => !cluster.liquidated).elim ∅
        fun cluster => ({cluster.clusterMembers.toList} : Finset (List OperatorId)) := by
    rw [Finset.mem_biUnion]
    exact ⟨c, hown, by simp [hcluster, Option.filter, hactive]⟩
  cases hsubnet : SubnetId.fromOperatorsForFork sha256 cluster.clusterMembers.toList fork with
  | error e =>
    cases e
    exact absurd ⟨_, hmem, hsubnet⟩ herror
  | ok subnet =>
    refine ⟨subnet, ?_, rfl⟩
    rw [Finset.mem_biUnion]
    exact ⟨_, hmem, by simp [hsubnet, Except.toOption]⟩

theorem lt_of_mem_generateSubnets {sha256 : Bytes → Hash256} {fork : Fork}
    {generator : SubnetGenerator} {subnets : Finset ℕ}
    (h : generator.generateSubnets sha256 fork = .ok subnets) {subnet : ℕ}
    (hmem : subnet ∈ subnets) : subnet < subnetCount := by
  cases generator with
  | all =>
    cases h
    exact Finset.mem_range.mp hmem
  | committees cs =>
    simp only [generateSubnets] at h
    split_ifs at h with herror
    cases h
    obtain ⟨committee, -, hsubnet⟩ := Finset.mem_biUnion.mp hmem
    cases hresult : SubnetId.fromOperatorsForFork sha256 committee fork with
    | error e => simp [hresult, Except.toOption] at hsubnet
    | ok subnet' =>
      simp only [hresult, Except.toOption, Option.toFinset_some, Finset.mem_singleton]
        at hsubnet
      subst hsubnet
      exact SubnetId.lt_of_fromOperatorsForFork hresult

theorem exists_generateSubnets (sha256 : Bytes → Hash256) (fork : Fork)
    {cs : Finset (List OperatorId)} (h : ∀ committee ∈ cs, committee ≠ []) :
    ∃ subnets, (committees cs).generateSubnets sha256 fork = .ok subnets := by
  have hnone : ¬∃ committee ∈ cs, SubnetId.fromOperatorsForFork sha256 committee fork =
      .error .emptyOperatorList := by
    rintro ⟨committee, hmem, herror⟩
    cases fork with
    | alan => cases herror
    | boole =>
      obtain ⟨subnet, hsubnet⟩ := SubnetId.exists_fromOperators sha256 (h committee hmem)
      cases hsubnet.symm.trans herror
  exact ⟨_, if_neg hnone⟩

end SubnetGenerator

/-! ## Queries -/

inductive SubnetServiceError where
  | subnetCalculation (e : SubnetCalculationError)
  | clusterNotFound (committeeId : CommitteeId)
deriving DecidableEq

structure SubnetService where
  sha256 : Bytes → Hash256
  forkSchedule : ForkSchedule
  slotsPerEpoch : ℕ

namespace SubnetService

variable (service : SubnetService) {C : Type}

def activeForkAtSlot (slot : ℕ) : Fork :=
  service.forkSchedule.activeFork (slot / service.slotsPerEpoch)

def subnetForCommitteeWithOperatorsAtSlot (committeeId : CommitteeId)
    (operatorIds : List OperatorId) (slot : ℕ) : Except SubnetServiceError ℕ :=
  match service.activeForkAtSlot slot with
  | .alan => .ok (SubnetId.fromCommitteeAlan committeeId)
  | .boole => (SubnetId.fromOperators service.sha256 operatorIds).mapError .subnetCalculation

/-- The members of the first cluster that the index finds; `walk` is the order in which a set
is iterated. -/
def operatorIdsForCommittee (walk : Finset C → List C) (state : Database.NetworkState C)
    (committeeId : CommitteeId) : Except SubnetServiceError (List OperatorId) :=
  match (walk (state.clusters.quaternary committeeId)).findSome? state.clusters.primary with
  | some cluster => .ok cluster.clusterMembers.toList
  | none => .error (.clusterNotFound committeeId)

def subnetForCommitteeAtSlot (walk : Finset C → List C) (state : Database.NetworkState C)
    (committeeId : CommitteeId) (slot : ℕ) : Except SubnetServiceError ℕ :=
  match operatorIdsForCommittee walk state committeeId with
  | .error e => .error e
  | .ok operatorIds =>
    service.subnetForCommitteeWithOperatorsAtSlot committeeId operatorIds slot

end SubnetService

def Database.NetworkState.CommitteesIndexed {C : Type} (sha256 : Bytes → Hash256)
    (state : Database.NetworkState C) : Prop :=
  ∀ q c, c ∈ state.clusters.quaternary q ↔
    ∃ cluster, state.clusters.primary c = some cluster ∧ cluster.committeeId sha256 = q

theorem Mirrors.committeesIndexed {C : Type} [DecidableEq C] {sha256 : Bytes → Hash256}
    {sql : Sql C} {state : Database.NetworkState C} (h : Mirrors sha256 sql state) :
    state.CommitteesIndexed sha256 := by
  have hcommittee : ∀ c cluster, state.clusters.primary c = some cluster →
      sql.committeeOf sha256 c = cluster.committeeId sha256 := by
    intro c cluster hcluster
    exact Sql.committeeOf_eq sha256 cluster.clusterMembers.nodup fun id =>
      (h.clusters_valued.clusterMembers c cluster hcluster id).symm
  intro q c
  rw [h.clusters_indexed.quaternary, ← h.clusters_indexed.primary, Option.isSome_iff_exists]
  constructor
  · rintro ⟨⟨cluster, hcluster⟩, hq⟩
    exact ⟨cluster, hcluster, (hcommittee c cluster hcluster).symm.trans hq⟩
  · rintro ⟨cluster, hcluster, hq⟩
    exact ⟨⟨cluster, hcluster⟩, (hcommittee c cluster hcluster).trans hq⟩

/-! ## Agreement -/

namespace ValidatorConfig

variable {K C : Type} (cfg : ValidatorConfig K)

def subnetService : SubnetService where
  sha256 := cfg.crypto.hashData
  forkSchedule := cfg.chain.forkSchedule
  slotsPerEpoch := cfg.chain.slotsPerEpoch

def AsksSubnetService : Prop :=
  cfg.subnetFor = fun committeeId operatorIds slot =>
    (cfg.subnetService.subnetForCommitteeWithOperatorsAtSlot committeeId operatorIds slot).toOption

def subscribedSubnet (cluster : Cluster C) (slot : ℕ) : Option ℕ :=
  (SubnetId.fromOperatorsForFork cfg.crypto.hashData cluster.clusterMembers.toList
    (cfg.subnetService.activeForkAtSlot slot)).toOption

def publishedSubnet (walk : Finset C → List C) (state : Database.NetworkState C)
    (cluster : Cluster C) (slot : ℕ) : Option ℕ :=
  (cfg.subnetService.subnetForCommitteeAtSlot walk state (cluster.committeeId cfg.crypto.hashData)
    slot).toOption

def expectedSubnet (id : MessageId) (members : List OperatorId) (slot : ℕ) : Option ℕ :=
  cfg.subnetFor (cfg.topicCommittee id members) members slot

end ValidatorConfig

/-- The message is one of the cluster: if it names a committee, then the cluster's. -/
def MessageId.Concerns {C : Type} (sha256 : Bytes → Hash256) (cluster : Cluster C)
    (id : MessageId) : Prop :=
  ∀ q, id.dutyExecutor = some (.committee q) → q = cluster.committeeId sha256

section Agreement

variable {K C : Type} {cfg : ValidatorConfig K} {walk : Finset C → List C}
  {state : Database.NetworkState C} {c : C} {cluster : Cluster C} {slot : ℕ}

theorem topicCommittee_eq {id : MessageId} {members : List OperatorId}
    (hmembers : members.Perm cluster.clusterMembers.toList)
    (hid : id.Concerns cfg.crypto.hashData cluster) :
    cfg.topicCommittee id members = cluster.committeeId cfg.crypto.hashData := by
  unfold ValidatorConfig.topicCommittee
  split
  · rename_i q hq
    exact hid q hq
  · exact CommitteeId.ofVec_eq_of_perm _ hmembers

theorem subscribedSubnet_alan (hfork : cfg.subnetService.activeForkAtSlot slot = .alan) :
    cfg.subscribedSubnet cluster slot = some (SubnetId.fromCommitteeAlan
      (.ofSlice cfg.crypto.hashData cluster.clusterMembers.toList)) := by
  rw [ValidatorConfig.subscribedSubnet, hfork]
  rfl

theorem subscribedSubnet_boole (hfork : cfg.subnetService.activeForkAtSlot slot = .boole) :
    cfg.subscribedSubnet cluster slot = (SubnetId.fromOperators cfg.crypto.hashData
      cluster.clusterMembers.toList).toOption := by
  rw [ValidatorConfig.subscribedSubnet, hfork]
  rfl

theorem withOperators_alan (hfork : cfg.subnetService.activeForkAtSlot slot = .alan)
    (q : CommitteeId) (ids : List OperatorId) :
    (cfg.subnetService.subnetForCommitteeWithOperatorsAtSlot q ids slot).toOption =
      some (SubnetId.fromCommitteeAlan q) := by
  rw [SubnetService.subnetForCommitteeWithOperatorsAtSlot, hfork]
  rfl

theorem withOperators_boole (hfork : cfg.subnetService.activeForkAtSlot slot = .boole)
    (q : CommitteeId) (ids : List OperatorId) :
    (cfg.subnetService.subnetForCommitteeWithOperatorsAtSlot q ids slot).toOption =
      (SubnetId.fromOperators cfg.crypto.hashData ids).toOption := by
  rw [SubnetService.subnetForCommitteeWithOperatorsAtSlot, hfork]
  change ((SubnetId.fromOperators cfg.crypto.hashData ids).mapError _).toOption = _
  cases SubnetId.fromOperators cfg.crypto.hashData ids <;> rfl

theorem expectedSubnet_eq (hcfg : cfg.AsksSubnetService) {id : MessageId}
    {members : List OperatorId} (hmembers : members.Perm cluster.clusterMembers.toList)
    (hid : id.Concerns cfg.crypto.hashData cluster) :
    cfg.expectedSubnet id members slot =
      (cfg.subnetService.subnetForCommitteeWithOperatorsAtSlot
        (cluster.committeeId cfg.crypto.hashData) cluster.clusterMembers.toList slot).toOption := by
  rw [ValidatorConfig.expectedSubnet, hcfg, topicCommittee_eq hmembers hid]
  simp only [SubnetService.subnetForCommitteeWithOperatorsAtSlot]
  rw [SubnetId.fromOperators_eq_of_perm _ hmembers]

theorem exists_operatorIdsForCommittee {sha256 : Bytes → Hash256}
    (hwalk : ∀ s x, x ∈ walk s ↔ x ∈ s) (hindex : state.CommitteesIndexed sha256)
    (hcluster : state.clusters.primary c = some cluster) :
    ∃ c' found, state.clusters.primary c' = some found ∧
      found.committeeId sha256 = cluster.committeeId sha256 ∧
      SubnetService.operatorIdsForCommittee walk state (cluster.committeeId sha256) =
        .ok found.clusterMembers.toList := by
  have hmem : c ∈ walk (state.clusters.quaternary (cluster.committeeId sha256)) :=
    (hwalk _ c).mpr ((hindex _ c).mpr ⟨cluster, hcluster, rfl⟩)
  cases hfind : (walk (state.clusters.quaternary (cluster.committeeId sha256))).findSome?
      state.clusters.primary with
  | none =>
    have hnone := List.findSome?_eq_none_iff.mp hfind c hmem
    rw [hcluster] at hnone
    cases hnone
  | some found =>
    obtain ⟨c', hc', hfound⟩ := List.exists_of_findSome?_eq_some hfind
    obtain ⟨found', hfound', hq⟩ := (hindex _ c').mp ((hwalk _ c').mp hc')
    cases hfound.symm.trans hfound'
    exact ⟨c', found, hfound, hq, by simp only [SubnetService.operatorIdsForCommittee, hfind]⟩

/-- The node subscribes to a subnet for every own cluster that is not liquidated; it is the
subnet that the node publishes to and that validators expect exactly if, before the fork, the
digest of the members in the order in which they are held agrees with that of the sorted members
modulo the number of subnets and, after it, the lookup by committee finds members of the same
subnet.  Members held in increasing order, and committee ids that do not collide, suffice. -/
theorem subnets_agree_iff (cfg : ValidatorConfig K) (walk : Finset C → List C)
    (state : Database.NetworkState C) (c : C) (cluster : Cluster C)
    (hcfg : cfg.AsksSubnetService) (hwalk : ∀ s x, x ∈ walk s ↔ x ∈ s)
    (hindex : state.CommitteesIndexed cfg.crypto.hashData) (hown : c ∈ state.ownClusters)
    (hcluster : state.clusters.primary c = some cluster) (hactive : cluster.liquidated = false)
    (slot : ℕ) :
    (∀ subnets, (SubnetGenerator.committeesFromNetworkState state).generateSubnets
      cfg.crypto.hashData (cfg.subnetService.activeForkAtSlot slot) = .ok subnets →
        ∃ subnet ∈ subnets, cfg.subscribedSubnet cluster slot = some subnet) ∧
    ((cfg.subscribedSubnet cluster slot = cfg.publishedSubnet walk state cluster slot ∧
        ∀ id members, members.Perm cluster.clusterMembers.toList →
          id.Concerns cfg.crypto.hashData cluster →
          cfg.publishedSubnet walk state cluster slot = cfg.expectedSubnet id members slot) ↔
      (cfg.subnetService.activeForkAtSlot slot = .alan →
        SubnetId.fromCommitteeAlan
            (.ofSlice cfg.crypto.hashData cluster.clusterMembers.toList) =
          SubnetId.fromCommitteeAlan (cluster.committeeId cfg.crypto.hashData)) ∧
      (cfg.subnetService.activeForkAtSlot slot = .boole → ∀ found,
        SubnetService.operatorIdsForCommittee walk state
          (cluster.committeeId cfg.crypto.hashData) = .ok found →
        SubnetId.fromOperators cfg.crypto.hashData found =
          SubnetId.fromOperators cfg.crypto.hashData cluster.clusterMembers.toList)) ∧
    (cluster.clusterMembers.toList.Pairwise (· ≤ ·) →
      SubnetId.fromCommitteeAlan (.ofSlice cfg.crypto.hashData cluster.clusterMembers.toList) =
        SubnetId.fromCommitteeAlan (cluster.committeeId cfg.crypto.hashData)) ∧
    ((∀ c' cluster', state.clusters.primary c' = some cluster' →
        cluster'.committeeId cfg.crypto.hashData = cluster.committeeId cfg.crypto.hashData →
        cluster'.clusterMembers.toList.Perm cluster.clusterMembers.toList) →
      ∀ found, SubnetService.operatorIdsForCommittee walk state
          (cluster.committeeId cfg.crypto.hashData) = .ok found →
        SubnetId.fromOperators cfg.crypto.hashData found =
          SubnetId.fromOperators cfg.crypto.hashData cluster.clusterMembers.toList) := by
  obtain ⟨c', found, hfound, hq, hlookup⟩ :=
    exists_operatorIdsForCommittee hwalk hindex hcluster
  refine ⟨?_, ?_, ?_, ?_⟩
  · intro subnets hsubnets
    obtain ⟨subnet, hmem, hsubnet⟩ :=
      SubnetGenerator.mem_generateSubnets hown hcluster hactive hsubnets
    refine ⟨subnet, hmem, ?_⟩
    rw [ValidatorConfig.subscribedSubnet, hsubnet]
    rfl
  · have hpublished : cfg.publishedSubnet walk state cluster slot =
        (cfg.subnetService.subnetForCommitteeWithOperatorsAtSlot
          (cluster.committeeId cfg.crypto.hashData) found.clusterMembers.toList slot).toOption := by
      simp only [ValidatorConfig.publishedSubnet, SubnetService.subnetForCommitteeAtSlot, hlookup]
    rw [hpublished]
    cases hfork : cfg.subnetService.activeForkAtSlot slot with
    | alan =>
      rw [subscribedSubnet_alan hfork, withOperators_alan hfork, Option.some.injEq]
      constructor
      · rintro ⟨hsame, -⟩
        exact ⟨fun _ => hsame, fun h => (nomatch h)⟩
      · rintro ⟨hsame, -⟩
        refine ⟨hsame rfl, fun id members hmembers hid => ?_⟩
        rw [expectedSubnet_eq hcfg hmembers hid, withOperators_alan hfork]
    | boole =>
      rw [subscribedSubnet_boole hfork, withOperators_boole hfork]
      constructor
      · rintro ⟨hsame, -⟩
        refine ⟨fun h => (nomatch h), fun _ found' hfound' => ?_⟩
        cases hlookup.symm.trans hfound'
        exact (SubnetId.eq_of_toOption_eq hsame).symm
      · rintro ⟨-, hsame⟩
        rw [hsame rfl _ hlookup]
        refine ⟨rfl, fun id members hmembers hid => ?_⟩
        rw [expectedSubnet_eq hcfg hmembers hid, withOperators_boole hfork]
  · intro hsorted
    rw [Cluster.committeeId, CommitteeId.ofVec, hsorted.insertionSort_eq]
  · intro hdistinct found' hfound'
    cases hlookup.symm.trans hfound'
    exact SubnetId.fromOperators_eq_of_perm _ (hdistinct c' found hfound hq)

end Agreement

namespace Sample

def firstByte (bytes : Bytes) : Hash256 := ⟨List.replicate 31 0 ++ [bytes.headD 0], by simp⟩

def subnetConfig : ValidatorConfig OperatorId where
  crypto := { crypto with hashData := firstByte }
  chain := chain
  subnetFor := fun committeeId operatorIds slot =>
    (SubnetService.subnetForCommitteeWithOperatorsAtSlot ⟨firstByte, chain.forkSchedule,
      chain.slotsPerEpoch⟩ committeeId operatorIds slot).toOption

def subnetCluster (members : IndexSet OperatorId) : Cluster ℕ :=
  ⟨0, ⟨List.replicate 20 0, rfl⟩, ⟨List.replicate 20 0, rfl⟩, false, members⟩

def subnetState (cluster : Cluster ℕ) : Database.NetworkState ℕ :=
  Database.NetworkState.insertValidator
    ⟨.id ⟨1⟩, fun _ => 0, firstByte, fun _ _ _ => true⟩
    ⟨.new, .new, .new, some ⟨1⟩, 0, fun _ => none, ∅, fun _ => none, none⟩ cluster
    ⟨⟨List.replicate 48 1, List.length_replicate⟩, 0, none, Hash256.default⟩
    (some ⟨⟨List.replicate 48 1, List.length_replicate⟩, ⟨1⟩, 0,
      ⟨List.replicate 48 2, List.length_replicate⟩, ⟨List.replicate 256 0, List.length_replicate⟩⟩)

theorem committeesIndexed_subnetState (members : IndexSet OperatorId) :
    (subnetState (subnetCluster members)).CommitteesIndexed firstByte := by
  intro q c
  change c ∈ Uniqueness.notUnique.add (fun _ => ∅) _ 0 q ↔
    ∃ cluster, Function.update (fun _ => none) 0 (some (subnetCluster members)) c = some cluster ∧ _
  rw [Uniqueness.mem_notUnique_add]
  constructor
  · rintro (⟨rfl, rfl⟩ | hmem)
    · exact ⟨_, Function.update_self _ _ _, rfl⟩
    · exact absurd hmem (Finset.notMem_empty _)
  · rintro ⟨cluster, hcluster, rfl⟩
    by_cases hc : c = 0
    · subst hc
      rw [Function.update_self] at hcluster
      cases hcluster
      exact Or.inl ⟨rfl, rfl⟩
    · rw [Function.update_of_ne hc] at hcluster
      cases hcluster

theorem subnets_agree_sample :
    subnetConfig.subscribedSubnet (subnetCluster members) 0 =
        subnetConfig.publishedSubnet (·.sort (· ≤ ·)) (subnetState (subnetCluster members))
          (subnetCluster members) 0 ∧
      ∀ id : MessageId, id.dutyExecutor = none →
        subnetConfig.publishedSubnet (·.sort (· ≤ ·)) (subnetState (subnetCluster members))
            (subnetCluster members) 0 =
          subnetConfig.expectedSubnet id [⟨4⟩, ⟨3⟩, ⟨2⟩, ⟨1⟩] 0 := by
  obtain ⟨-, hagree, hsorted, -⟩ := subnets_agree_iff subnetConfig (·.sort (· ≤ ·))
    (subnetState (subnetCluster members)) 0 (subnetCluster members) rfl
    (fun s x => Finset.mem_sort _) (committeesIndexed_subnetState members) (by decide) rfl rfl 0
  obtain ⟨hpublished, hexpected⟩ := hagree.mpr
    ⟨fun _ => hsorted (by decide), fun h => absurd h (by decide +kernel)⟩
  refine ⟨hpublished, fun id hid => hexpected id _ (by decide) fun q hq => ?_⟩
  rw [hid] at hq
  cases hq

/-- Members that are held in another order: the node subscribes to the subnet two and publishes
to the subnet one. -/
theorem subnets_differ_for_unsorted_members :
    let cluster := subnetCluster ⟨[⟨2⟩, ⟨1⟩, ⟨3⟩, ⟨4⟩], by decide⟩
    (subnetState cluster).CommitteesIndexed firstByte ∧ cluster.liquidated = false ∧
      0 ∈ (subnetState cluster).ownClusters ∧
      subnetConfig.subscribedSubnet cluster 0 = some 2 ∧
      subnetConfig.publishedSubnet (·.sort (· ≤ ·)) (subnetState cluster) cluster 0 = some 1 :=
  ⟨committeesIndexed_subnetState _, rfl, by decide, by decide +kernel, by decide +kernel⟩

end Sample

end Anchor
