import Mathlib
import Anchor.Keysplit.Split
import Anchor.SubnetService.Subscriptions

/-!
# Messages on their topics

A node sends a message to the topic of its committee's subnet, in the fork of the message's
slot.  The nodes that receive it read the fork and the subnet back from the topic, decode the
message and check that it came on the topic they expect.  On this way an honest message is
neither changed nor refused.
-/

namespace Anchor

open Ssz

/-! ## Reading topics -/

/-- `parse::<Fork>`; only letters of ASCII have a letter of these names as their lower case. -/
def Fork.fromStr (text : List Char) : Option Fork :=
  if text.map Char.toLower = "alan".toList then some .alan
  else if text.map Char.toLower = "boole".toList then some .boole
  else none

def parseAndValidateSubnet (subnetNum : UInt64) : Option ℕ :=
  if subnetNum.toNat < subnetCount then some subnetNum.toNat else none

def parseTopicStr (s : List Char) : Option (ParsedTopic × Option (List Char)) :=
  match "ssv.v2.".toList.isPrefixOf? s with
  | some suffix => do
    let subnetNum ← (Keysplit.parseU64 suffix).toOption
    let subnetId ← parseAndValidateSubnet subnetNum
    return (⟨subnetId, .alan⟩, none)
  | none =>
    match s.splitOn '/' with
    | [[], ['s', 's', 'v'], network, forkName, subnetStr] => do
      let fork ← Fork.fromStr forkName
      if fork = .alan then none
      else
        let subnetNum ← (Keysplit.parseU64 subnetStr).toOption
        let subnetId ← parseAndValidateSubnet subnetNum
        return (⟨subnetId, fork⟩, some network)
    | _ => none

theorem parse_toDigits : ∀ n < subnetCount, '/' ∉ Nat.toDigits 10 n ∧
    (Keysplit.parseU64 (Nat.toDigits 10 n)).toOption.bind parseAndValidateSubnet = some n := by
  decide +kernel

theorem parseTopicStr_createTopic {networkName : String} (hname : '/' ∉ networkName.toList)
    (fork : Fork) {subnet : ℕ} (hsubnet : subnet < subnetCount) :
    ∃ network, parseTopicStr (createTopic (fork.topicPrefix networkName) subnet).toList =
      some (⟨subnet, fork⟩, network) := by
  obtain ⟨hslash, hparse⟩ := parse_toDigits subnet hsubnet
  obtain ⟨subnetNum, hnum, hsubnetNum⟩ := Option.bind_eq_some_iff.mp hparse
  unfold parseTopicStr
  cases fork with
  | alan =>
    have hsuffix : "ssv.v2.".toList.isPrefixOf?
        (createTopic (Fork.alan.topicPrefix networkName) subnet).toList =
          some (Nat.toDigits 10 subnet) := by
      rw [List.isPrefixOf?_eq_some_iff_append_eq]
      simp [createTopic, Fork.topicPrefix, alanTopicPrefix]
    rw [hsuffix]
    exact ⟨none, by simp [hnum, hsubnetNum]⟩
  | boole =>
    let fields := [[], ['s', 's', 'v'], networkName.toList, Fork.boole.name.toList,
      Nat.toDigits 10 subnet]
    have hfields : (createTopic (Fork.boole.topicPrefix networkName) subnet).toList =
        List.intercalate ['/'] fields := by
      simp [createTopic, Fork.topicPrefix, Fork.name, fields, List.intercalate]
    have hsplit : (List.intercalate ['/'] fields).splitOn '/' = fields :=
      List.splitOn_intercalate '/' (by simp [fields, Fork.name, hname, hslash])
        (List.cons_ne_nil _ _)
    have hfork : Fork.fromStr Fork.boole.name.toList = some .boole := rfl
    have hnone : "ssv.v2.".toList.isPrefixOf? (List.intercalate ['/'] fields) = none := rfl
    rw [hfields, hnone, hsplit]
    refine ⟨some networkName.toList, ?_⟩
    simp [fields, hfork, hnum, hsubnetNum]

/-! ## Sending -/

namespace SubscribingService

variable (service : SubscribingService)

def topicForSubnetAtEpoch (subnet epoch : ℕ) : String :=
  createTopic ((service.forkSchedule.activeForkConfig epoch).fork.topicPrefix
    service.networkName) subnet

def topicForSubnetAtSlot (subnet slot : ℕ) : String :=
  service.topicForSubnetAtEpoch subnet (slot / service.slotsPerEpoch)

end SubscribingService

def validateOutboundMessage (isSignature : Bytes → Bool) (m : SignedSSVMessage) :
    Except ValidationFailure ℕ := do
  let _ ← validateStructureAndRole m
  (m.ssvMessage.extractSlot isSignature).elim (.error .unknownMessageSlot) .ok

/-- The topic and the bytes that are handed to the network; a message is dropped for an error. -/
def SubscribingService.doSend {C : Type} (service : SubscribingService)
    (isSignature : Bytes → Bool) (walk : Finset C → List C) (state : Database.NetworkState C)
    (m : SignedSSVMessage) (committeeId : CommitteeId) : Option (String × Bytes) :=
  match validateOutboundMessage isSignature m with
  | .error _ => none
  | .ok slot =>
    match service.subnetForCommitteeAtSlot walk state committeeId slot with
    | .error _ => none
    | .ok subnet => some (service.topicForSubnetAtSlot subnet slot, m.asSszBytes)

theorem exists_of_doSend {C : Type} {service : SubscribingService} {isSignature : Bytes → Bool}
    {walk : Finset C → List C} {state : Database.NetworkState C} {m : SignedSSVMessage}
    {committeeId : CommitteeId} {topic : String} {bytes : Bytes}
    (h : service.doSend isSignature walk state m committeeId = some (topic, bytes)) :
    ∃ slot subnet, m.ssvMessage.extractSlot isSignature = some slot ∧
      service.subnetForCommitteeAtSlot walk state committeeId slot = .ok subnet ∧
      topic = service.topicForSubnetAtSlot subnet slot ∧ bytes = m.asSszBytes := by
  unfold SubscribingService.doSend at h
  split at h
  · cases h
  rename_i slot hslot
  split at h
  · cases h
  rename_i subnet hsubnet
  cases h
  refine ⟨slot, subnet, ?_, hsubnet, rfl, rfl⟩
  obtain ⟨_, -, hextract⟩ := Checks.bind_eq_ok.mp hslot
  cases hsome : m.ssvMessage.extractSlot isSignature with
  | none =>
    rw [hsome] at hextract
    cases hextract
  | some slot' =>
    rw [hsome] at hextract
    cases hextract
    rfl

/-! ## Receiving -/

inductive ValidationResult where
  | success (x : ValidatedSSVMessage)
  | preDecodeFailure
  | postDecodeFailure (e : ValidationFailure) (m : SignedSSVMessage)

namespace Validator

variable {K : Type} {cfg : ValidatorConfig K} (v : Validator cfg)

def validate (r : Reception K) (messageData : Bytes) : ValidationResult × Validator cfg :=
  match SignedSSVMessage.fromSszBytes messageData with
  | none => (.preDecodeFailure, v)
  | some m =>
    match v.validateDecodedMessage r m with
    | (.ok x, v') => (.success x, v')
    | (.error e, v') => (.postDecodeFailure e m, v')

/-- A message on a topic that cannot be read is dropped. -/
def handleGossipsubMessage (r : Reception K) (topic : String) (messageData : Bytes) :
    Option (ValidationResult × Validator cfg) :=
  (parseTopicStr topic.toList).map fun parsed =>
    v.validate { r with topic := .validate parsed.1 } messageData

end Validator

/-! ## From sender to receiver -/

namespace SubnetService

theorem withOperators_lt {service : SubnetService} {committeeId : CommitteeId}
    {ids : List OperatorId} {slot subnet : ℕ}
    (h : service.subnetForCommitteeWithOperatorsAtSlot committeeId ids slot = .ok subnet) :
    subnet < subnetCount := by
  unfold subnetForCommitteeWithOperatorsAtSlot at h
  split at h
  · cases h
    exact Nat.mod_lt _ (by decide)
  · have hids : SubnetId.fromOperatorsForFork service.sha256 ids .boole = .ok subnet :=
      Checks.mapError_eq_ok_iff.mp h
    exact SubnetId.lt_of_fromOperatorsForFork hids

end SubnetService

namespace ValidatorConfig

variable {K : Type} {cfg : ValidatorConfig K} {r : Reception K} {signed : SignedSSVMessage}

theorem validateTopicAndDomain_eq_ok {m : SSVMessage} {members : List OperatorId}
    {slot subnet : ℕ} (hslot : m.extractSlot cfg.chain.isSignature = some slot)
    (hsubnet : cfg.expectedSubnet m.msgId members slot = some subnet)
    (hdomain : m.msgId.domain =
      (cfg.chain.forkSchedule.activeForkConfig (cfg.chain.epochOf slot)).domainType) :
    cfg.validateTopicAndDomain (.validate ⟨subnet,
      cfg.chain.forkSchedule.activeFork (cfg.chain.epochOf slot)⟩) members m = .ok () := by
  have hexpected : cfg.subnetFor (cfg.topicCommittee m.msgId members) members slot =
    some subnet := hsubnet
  simp only [validateTopicAndDomain, Checks.bind_eq_ok, hslot]
  exact ⟨slot, rfl, subnet, by rw [hexpected]; rfl, (), by simp, (), by simp, _,
    by rw [ForkSchedule.domainType_activeFork]; rfl, by simp [hdomain]⟩

theorem contextOf_skipValidation
    (h : ∀ role info, committeeInfo r.networkState role signed.ssvMessage.msgId = .ok info →
      cfg.validateTopicAndDomain r.topic info.committeeMembers.toList signed.ssvMessage = .ok ()) :
    cfg.contextOf r signed = cfg.contextOf { r with topic := .skipValidation } signed := by
  unfold contextOf
  cases validateStructureAndRole signed with
  | error e => rfl
  | ok role =>
    change (committeeInfo _ role _ >>= _) = (committeeInfo _ role _ >>= _)
    cases hinfo : committeeInfo r.networkState role signed.ssvMessage.msgId with
    | error e => rfl
    | ok info =>
      change (cfg.validateTopicAndDomain r.topic _ _ >>= _) = _
      rw [h role info hinfo]
      rfl

end ValidatorConfig

/-- The node routes messages by the rules that the validator checks. -/
structure SubscribingService.RoutesFor {K : Type} (service : SubscribingService)
    (cfg : ValidatorConfig K) : Prop where
  asks : cfg.AsksSubnetService
  subnetService_eq : service.toSubnetService = cfg.subnetService
  network_name : '/' ∉ service.networkName.toList

/-- The node finds the members of the cluster by its committee, in whatever order. -/
structure Database.NetworkState.Finds {C : Type} (state : Database.NetworkState C)
    (walk : Finset C → List C) (sha256 : Bytes → Hash256) (cluster : Cluster C) : Prop where
  mem_walk : ∀ s x, x ∈ walk s ↔ x ∈ s
  indexed : state.CommitteesIndexed sha256
  held : ∃ c, state.clusters.primary c = some cluster
  no_collision : ∀ c' cluster', state.clusters.primary c' = some cluster' →
    cluster'.committeeId sha256 = cluster.committeeId sha256 →
    cluster'.clusterMembers.toList.Perm cluster.clusterMembers.toList

theorem Database.NetworkState.Finds.subnetForCommitteeAtSlot_eq {C : Type}
    {state : Database.NetworkState C} {walk : Finset C → List C} {service : SubnetService}
    {cluster : Cluster C} (h : state.Finds walk service.sha256 cluster) (slot : ℕ) :
    service.subnetForCommitteeAtSlot walk state (cluster.committeeId service.sha256) slot =
      service.subnetForCommitteeWithOperatorsAtSlot (cluster.committeeId service.sha256)
        cluster.clusterMembers.toList slot := by
  obtain ⟨c, hcluster⟩ := h.held
  obtain ⟨c', found, hfound, hq, hlookup⟩ :=
    exists_operatorIdsForCommittee h.mem_walk h.indexed hcluster
  simp only [SubnetService.subnetForCommitteeAtSlot, hlookup,
    SubnetService.subnetForCommitteeWithOperatorsAtSlot]
  rw [SubnetId.fromOperators_eq_of_perm _ (h.no_collision c' found hfound hq)]

/-- The way from a node to another one is transparent: if a node sends a message of a cluster on
a topic, with the domain of the fork of its slot, then a node that has the same members for it
decodes it, and answers as if it had not looked at the topic. -/
theorem gossip_transparent {K C : Type} (cfg : ValidatorConfig K) (service : SubscribingService)
    (hservice : service.RoutesFor cfg) (walk : Finset C → List C)
    (state : Database.NetworkState C) (cluster : Cluster C)
    (hfinds : state.Finds walk cfg.crypto.hashData cluster) (m : SignedSSVMessage)
    (hid : m.ssvMessage.msgId.Concerns cfg.crypto.hashData cluster)
    (hdomain : ∀ slot, m.ssvMessage.extractSlot cfg.chain.isSignature = some slot →
      m.ssvMessage.msgId.domain =
        (cfg.chain.forkSchedule.activeForkConfig (cfg.chain.epochOf slot)).domainType)
    (topic : String) (bytes : Bytes)
    (hsend : service.doSend cfg.chain.isSignature walk state m
      (cluster.committeeId cfg.crypto.hashData) = some (topic, bytes))
    (v : Validator cfg) (r : Reception K)
    (hmembers : ∀ role info,
      ValidatorConfig.committeeInfo r.networkState role m.ssvMessage.msgId = .ok info →
      info.committeeMembers.toList.Perm cluster.clusterMembers.toList) :
    SignedSSVMessage.fromSszBytes bytes = some m ∧
      v.handleGossipsubMessage r topic bytes =
        some (v.validate { r with topic := .skipValidation } bytes) := by
  obtain ⟨base, networkName, all⟩ := service
  obtain ⟨hasks, rfl, hname⟩ := hservice
  obtain ⟨slot, subnet, hslot, hsubnet, rfl, rfl⟩ := exists_of_doSend hsend
  have hsubnet' : cfg.subnetService.subnetForCommitteeWithOperatorsAtSlot
      (cluster.committeeId cfg.crypto.hashData) cluster.clusterMembers.toList slot = .ok subnet :=
    (Database.NetworkState.Finds.subnetForCommitteeAtSlot_eq hfinds slot).symm.trans hsubnet
  obtain ⟨network, hparse⟩ := parseTopicStr_createTopic hname
    (cfg.chain.forkSchedule.activeFork (cfg.chain.epochOf slot))
    (SubnetService.withOperators_lt hsubnet')
  refine ⟨SignedSSVMessage.fromSszBytes_asSszBytes m, ?_⟩
  have hcontext : cfg.contextOf { r with topic := .validate ⟨subnet,
      cfg.chain.forkSchedule.activeFork (cfg.chain.epochOf slot)⟩ } m =
        cfg.contextOf { r with topic := .skipValidation } m := by
    refine ValidatorConfig.contextOf_skipValidation fun role info hinfo => ?_
    refine ValidatorConfig.validateTopicAndDomain_eq_ok hslot ?_ (hdomain slot hslot)
    rw [expectedSubnet_eq hasks (hmembers role info hinfo) hid, hsubnet']
    rfl
  have htopic : SubscribingService.topicForSubnetAtSlot ⟨cfg.subnetService, networkName, all⟩
      subnet slot = createTopic ((cfg.chain.forkSchedule.activeFork
        (cfg.chain.epochOf slot)).topicPrefix networkName) subnet := rfl
  simp only [Validator.handleGossipsubMessage, htopic, hparse, Option.map_some, Validator.validate,
    SignedSSVMessage.fromSszBytes_asSszBytes, Validator.validateDecodedMessage, hcontext]

namespace Sample

def sendingService : SubscribingService := ⟨subnetConfig.subnetService, "mainnet", false⟩

def sentRequestAuth : Option (String × Bytes) :=
  sendingService.doSend chain.isSignature (·.sort (· ≤ ·)) (subnetState (subnetCluster members))
    (requestAuth 7) ((subnetCluster members).committeeId firstByte)

theorem gossip_transparent_requestAuth :
    ∃ topic bytes, sentRequestAuth = some (topic, bytes) ∧
      (Validator.new subnetConfig).handleGossipsubMessage (reception 1) topic bytes =
        some ((Validator.new subnetConfig).validate
          { reception 1 with topic := .skipValidation } bytes) := by
  obtain ⟨⟨topic, bytes⟩, hsend⟩ := Option.isSome_iff_exists.mp
    (show sentRequestAuth.isSome by decide +kernel)
  refine ⟨topic, bytes, hsend, (gossip_transparent subnetConfig sendingService
    ⟨rfl, rfl, by decide⟩ (·.sort (· ≤ ·)) (subnetState (subnetCluster members))
    (subnetCluster members) ⟨fun s x => Finset.mem_sort _, committeesIndexed_subnetState members,
      ⟨0, rfl⟩, ?_⟩ (requestAuth 7) ?_ ?_ topic bytes hsend _ (reception 1) ?_).2⟩
  · intro c' cluster' hcluster' _
    change Function.update (fun _ => none) 0 (some (subnetCluster members)) c' = some cluster'
      at hcluster'
    obtain rfl : c' = 0 := by
      by_contra hne
      rw [Function.update_of_ne hne] at hcluster'
      cases hcluster'
    rw [Function.update_self] at hcluster'
    cases hcluster'
    exact List.Perm.refl _
  · intro q hq
    cases hq
  · intro slot hslot
    have hzero : (requestAuth 7).ssvMessage.extractSlot chain.isSignature = some 0 := by
      decide +kernel
    cases hzero.symm.trans hslot
    decide +kernel
  · intro role info hinfo
    cases role <;> cases hinfo <;> exact List.Perm.refl _

end Sample

end Anchor
