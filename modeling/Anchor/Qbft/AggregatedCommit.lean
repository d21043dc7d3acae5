import Mathlib
import Anchor.Qbft.Commit
import Anchor.Qbft.Simulation

/-!
# The aggregated commit

An instance that has a quorum of commits aggregates them to one message, adds the
data and sends it to everybody.  The message does not depend on the order in which
the commits came, it passes the checks of the validator on messages of several
signers, and an instance of the committee takes it in whatever round it is.
-/

namespace Anchor

open Ssz

namespace SignedSSVMessage

variable {m a : SignedSSVMessage}

theorem firstWrongSize_of_forall {sigs : List (VariableList UInt8 256)} (i : ℕ)
    (h : ∀ sig ∈ sigs, sig.toList.length = rsaSignatureSize) : firstWrongSize i sigs = none := by
  induction sigs generalizing i with
  | nil => rfl
  | cons sig sigs ih =>
    rw [firstWrongSize, if_pos (h sig List.mem_cons_self)]
    exact ih (i + 1) fun sig' hsig' => h sig' (List.mem_cons_of_mem _ hsig')

theorem validate_eq_ok_iff :
    m.validate = .ok () ↔ m.WellFormed ∧ m.ssvMessage.validate = .ok () := by
  constructor
  · intro h
    refine ⟨wellFormed_of_validate h, ?_⟩
    unfold validate at h
    split at h
    · cases h
    split_ifs at h
    split at h
    · cases h
    · assumption
  · rintro ⟨hwf, hssv⟩
    have hids : m.operatorIds.toList.isEmpty = false := by
      simpa using hwf.operatorIds_ne_nil
    have hsigs : m.signatures.toList.isEmpty = false := by
      rw [List.isEmpty_eq_false_iff, ← List.length_pos_iff, hwf.length_signatures,
        List.length_pos_iff]
      exact hwf.operatorIds_ne_nil
    have hzero : m.operatorIds.toList.any (fun id => decide (id.val = 0)) = false := by
      simpa using hwf.operatorIds_ne_zero
    simp only [validate, firstWrongSize_of_forall 0 hwf.signature_size, hids, hsigs, hzero,
      hwf.nodup, hwf.length_signatures, hssv, Bool.false_eq_true, not_true_eq_false, ne_eq,
      if_false]

theorem eq_of_pairs_eq (ha : a.operatorIds.toList.length = a.signatures.toList.length)
    (hm : m.operatorIds.toList.length = m.signatures.toList.length) (hpairs : a.pairs = m.pairs)
    (hssv : a.ssvMessage = m.ssvMessage) (hdata : a.fullData.toList = m.fullData.toList) :
    a = m := by
  refine SignedSSVMessage.ext (VariableList.ext ?_) (VariableList.ext ?_) hssv
    (VariableList.ext hdata)
  · rw [← map_fst_pairs ha, hpairs, map_fst_pairs hm]
  · rw [← map_snd_pairs ha, hpairs, map_snd_pairs hm]

end SignedSSVMessage

theorem ValidationContext.Validated.validate_ssvMessage {K : Type} {ctx : ValidationContext K}
    {w : WrappedQbftMessage} (h : ctx.Validated w) :
    w.signedMessage.ssvMessage.validate = .ok () := by
  have hvalidate := h.validate_eq
  unfold ValidationContext.validateSsvMessage validateStructureAndRole at hvalidate
  cases hm : w.signedMessage.validate with
  | error e =>
    rw [hm] at hvalidate
    cases hvalidate
  | ok u => exact (SignedSSVMessage.validate_eq_ok_iff.mp hm).2

namespace Qbft

variable {F D : Type} [LeaderFunction F] [QbftData D] {K : Type}

/-- Commits for the root `v` of the instance, each of another signer, that sign one
message and are as many as a quorum.  They passed the validator or are the instance's
own. -/
structure CommitQuorum (ctx : ValidationContext K) (q : Qbft F D) (v : Hash256)
    (ms : List WrappedQbftMessage) : Prop where
  admissible : ∀ m ∈ ms, q.Admissible ctx (.receive m)
  type_eq : ∀ m ∈ ms, m.qbftMessage.qbftMessageType = .commit
  height_eq : ∀ m ∈ ms, m.qbftMessage.height = q.instanceHeight
  root_eq : ∀ m ∈ ms, m.qbftMessage.root = v
  operatorIds_eq : ∀ m ∈ ms, m.signedMessage.operatorIds.toList = [m.signer]
  mem_committee : ∀ m ∈ ms, m.signer ∈ q.config.committeeMembers.toList
  uniform : Uniform ms
  nodup : (ms.map WrappedQbftMessage.signer).Nodup
  quorum : q.config.quorumSize ≤ ms.length

namespace CommitQuorum

variable {ctx : ValidationContext K} {q : Qbft F D} {v : Hash256}
  {ms ms' : List WrappedQbftMessage} {a : SignedSSVMessage}

omit [LeaderFunction F] [QbftData D] in
theorem perm (h : CommitQuorum ctx q v ms) (hperm : ms.Perm ms') : CommitQuorum ctx q v ms' where
  admissible m hm := h.admissible m (hperm.mem_iff.mpr hm)
  type_eq m hm := h.type_eq m (hperm.mem_iff.mpr hm)
  height_eq m hm := h.height_eq m (hperm.mem_iff.mpr hm)
  root_eq m hm := h.root_eq m (hperm.mem_iff.mpr hm)
  operatorIds_eq m hm := h.operatorIds_eq m (hperm.mem_iff.mpr hm)
  mem_committee m hm := h.mem_committee m (hperm.mem_iff.mpr hm)
  uniform := h.uniform.subset fun _ hm => hperm.mem_iff.mpr hm
  nodup := (hperm.map _).nodup_iff.mp h.nodup
  quorum := hperm.length_eq ▸ h.quorum

omit [LeaderFunction F] [QbftData D] in
theorem one_lt_length (h : CommitQuorum ctx q v ms) : 1 < ms.length := by
  have hquorum := h.quorum
  have hf := q.config.one_le_f
  rw [q.config.quorumSize_eq] at hquorum
  omega

omit [LeaderFunction F] [QbftData D] in
theorem length_le (h : CommitQuorum ctx q v ms) : ms.length ≤ 13 := by
  have hcard := List.toFinset_card_of_nodup h.nodup
  rw [List.length_map] at hcard
  rw [← hcard]
  refine (Finset.card_le_card fun i hi => ?_).trans q.config.card_committee_le
  obtain ⟨m, hm, rfl⟩ := List.mem_map.mp (List.mem_toFinset.mp hi)
  rw [Config.committee, List.mem_toFinset]
  exact h.mem_committee m hm

theorem exists_qbftMessage (hq : q.Reachable ctx) (h : CommitQuorum ctx q v ms) :
    ∃ msg, (∀ m ∈ ms, m.qbftMessage = msg) ∧ 0 < msg.round.toNat := by
  obtain ⟨m₀, rest, hms⟩ := List.exists_cons_of_length_pos (zero_lt_one.trans h.one_lt_length)
  have hmem : m₀ ∈ ms := by simp [hms]
  have hsound : ∀ m ∈ ms, m.Sound := fun m hm => (h.admissible m hm).sound hq.grounded
  refine ⟨m₀.qbftMessage, fun m hm => ?_, (hsound m₀ hmem).round_pos⟩
  have hdecode := (hsound m hm).decoded
  rw [h.uniform m hm m₀ hmem, (hsound m₀ hmem).decoded] at hdecode
  exact (Option.some.inj hdecode).symm

theorem stored (hq : q.Reachable ctx) (h : CommitQuorum ctx q v ms) :
    ∃ r : Round, ∀ m ∈ ms, q.Stored .commit r m := by
  obtain ⟨msg, hmsg, hpos⟩ := h.exists_qbftMessage hq
  refine ⟨Round.ofU64 msg.round hpos, fun m hm => ⟨(h.admissible m hm).sound hq.grounded,
    h.type_eq m hm, ?_, h.height_eq m hm, h.operatorIds_eq m hm, h.mem_committee m hm, trivial⟩⟩
  rw [hmsg m hm, Round.toU64_ofU64]

omit [LeaderFunction F] [QbftData D] in
theorem exists_validated (h : CommitQuorum ctx q v ms) : ∃ m ∈ ms, ctx.Validated m := by
  by_contra hnone
  push Not at hnone
  have hown : ∀ m ∈ ms, m.signer = q.config.operatorId := by
    intro m hm
    rcases h.admissible m hm with hvalid | ⟨u, -, signature, hsign⟩
    · exact absurd hvalid (hnone m hm)
    · have hids := (UnsignedWrappedQbftMessage.sign_eq_ok hsign).2.2.1
      rw [h.operatorIds_eq m hm] at hids
      exact List.cons.inj hids |>.1
  have hlength := h.one_lt_length
  have hnodup := h.nodup
  rcases ms with _ | ⟨m, _ | ⟨m', rest⟩⟩
  · simp at hlength
  · simp at hlength
  · rw [List.map_cons, List.map_cons, hown m (by simp), hown m' (by simp)] at hnodup
    simp at hnodup

theorem map_snd_flatMap_pairs (hq : q.Reachable ctx) (h : CommitQuorum ctx q v ms) :
    (ms.flatMap fun m => m.signedMessage.pairs).map Prod.snd =
      ms.map WrappedQbftMessage.signer := by
  obtain ⟨r, hstored⟩ := h.stored hq
  rw [List.map_flatMap, ← signersOf_eq_map hstored, SignedSSVMessage.signersOf, List.flatMap_map]
  refine List.flatMap_congr fun m hm => ?_
  exact SignedSSVMessage.map_snd_pairs (hstored m hm).length_operatorIds

theorem aggregate_spec (hq : q.Reachable ctx) (h : CommitQuorum ctx q v ms) {d : D}
    (hd : q.data v = some d) (ha : q.aggregateCommitMessages ms = .ok a) :
    a.operatorIds.toList.length = a.signatures.toList.length ∧
      (a.pairs = (ms.flatMap fun m => m.signedMessage.pairs).insertionSort
        fun x y => x.2 ≤ y.2) ∧
      (∀ m ∈ ms, a.ssvMessage = m.signedMessage.ssvMessage) ∧
      a.fullData.toList = QbftData.asSszBytes d := by
  obtain ⟨r, hstored⟩ := h.stored hq
  obtain ⟨-, hssv, -⟩ := aggregateCommitMessages_eq_ok ha hstored
  cases ms with
  | nil => cases ha
  | cons m rest =>
    obtain ⟨-, a', d', ha', hd', hdata, hkeep⟩ := aggregateCommitMessages_cons ha
    obtain ⟨hlength, hpairs⟩ := SignedSSVMessage.pairs_aggregate ha'
      (hstored m List.mem_cons_self).length_operatorIds
    rw [h.root_eq m List.mem_cons_self, hd] at hd'
    cases hd'
    refine ⟨?_, ?_, hssv, hdata⟩
    · rw [hkeep]
      exact hlength
    · rw [List.flatMap_map] at hpairs
      rw [hkeep]
      exact hpairs

end CommitQuorum

/-! ## Receiving it -/

section Receive

variable {q : Qbft F D} {w : WrappedQbftMessage}

omit [LeaderFunction F] [QbftData D] in
theorem checkRound_of_quorum (htype : w.qbftMessage.qbftMessageType = .commit)
    (hquorum : q.hasQuorum [w.signedMessage] = true) : q.checkRound w = .ok () := by
  unfold checkRound
  simp only [htype, hquorum]
  split_ifs with hpast
  · exact absurd ⟨trivial, trivial⟩ hpast.2
  · rfl
  · rfl

omit [LeaderFunction F] in
theorem validateMessage_of_quorum (htype : w.qbftMessage.qbftMessageType = .commit)
    (hheight : w.qbftMessage.height = q.instanceHeight)
    (hmem : ∀ i ∈ w.signedMessage.operatorIds.toList, i ∈ q.config.committeeMembers.toList)
    (hlength : 1 < w.signedMessage.operatorIds.toList.length)
    (hquorum : q.hasQuorum [w.signedMessage] = true) :
    q.validateMessage w = .ok (.hashOnly w.qbftMessage.root, ⟨0⟩) := by
  have hcommittee : (w.signedMessage.operatorIds.toList.any fun i => ! q.checkCommittee i) =
      false := by
    rw [List.any_eq_false]
    intro i hi
    simpa [checkCommittee] using hmem i hi
  unfold validateMessage
  simp only [checkRound_of_quorum htype hquorum, hheight, hcommittee, hlength, ne_eq,
    not_true_eq_false, Bool.false_eq_true, if_false, if_true]

omit [LeaderFunction F] in
/-- A decided message with acceptable data completes the instance, unless it has
completed before. -/
theorem receivedDecided_of_quorum (hquorum : q.hasQuorum [w.signedMessage] = true) {d : D}
    (hd : QbftData.fromSszBytes w.signedMessage.fullData.toList = some d)
    (hvalid : q.dataValidator d q.startData = true) :
    (q.receivedDecided w).2 = .ok () ∧
      ((∀ v, q.completed ≠ some (.success v)) →
        (q.receivedDecided w).1.completed = some (.success w.qbftMessage.root)) := by
  unfold receivedDecided
  simp only [hquorum, hd, hvalid, Bool.not_true, Bool.false_eq_true, if_false]
  split
  · rename_i v hv
    exact ⟨rfl, fun hne => absurd hv (hne v)⟩
  · exact ⟨rfl, fun _ => rfl⟩

end Receive

section Main

variable {ctx : ValidationContext K} {q : Qbft F D} {v : Hash256} {ms : List WrappedQbftMessage}
  {a : SignedSSVMessage} {msg : QbftMessage} {d : D}

section

variable (hq : q.Reachable ctx) (h : CommitQuorum ctx q v ms) (hd : q.data v = some d)
include hq h hd

theorem CommitQuorum.aggregate_perm (hfits : (QbftData.asSszBytes d).length ≤ ssvMessageFullDataLen)
    (ha : q.aggregateCommitMessages ms = .ok a) {ms' : List WrappedQbftMessage}
    (hperm : ms.Perm ms') : q.aggregateCommitMessages ms' = .ok a := by
  have h' := h.perm hperm
  obtain ⟨r, hstored⟩ := h'.stored hq
  obtain ⟨a', ha'⟩ := exists_aggregateCommitMessages hstored
    (List.ne_nil_of_length_pos (zero_lt_one.trans h'.one_lt_length)) h'.length_le h'.uniform
    h'.root_eq hd hfits
  obtain ⟨hlength, hpairs, hssv, hdata⟩ := h.aggregate_spec hq hd ha
  obtain ⟨hlength', hpairs', hssv', hdata'⟩ := h'.aggregate_spec hq hd ha'
  obtain ⟨m, rest, hms⟩ := List.exists_cons_of_length_pos (zero_lt_one.trans h.one_lt_length)
  have hm : m ∈ ms := by simp [hms]
  have hkeys : ((ms.flatMap fun m => m.signedMessage.pairs).map Prod.snd).Nodup := by
    rw [h.map_snd_flatMap_pairs hq]
    exact h.nodup
  rw [ha', SignedSSVMessage.eq_of_pairs_eq hlength' hlength]
  · rw [hpairs, hpairs']
    exact (KeySort.insertionSort_eq_of_perm Prod.snd (hperm.flatMap_right _) hkeys).symm
  · rw [hssv m hm, hssv' m (hperm.mem_iff.mp hm)]
  · rw [hdata, hdata']

theorem CommitQuorum.operatorIds_spec (ha : q.aggregateCommitMessages ms = .ok a) :
    a.operatorIds.toList.Pairwise (· < ·) ∧
      a.operatorIds.toList.Perm (ms.map WrappedQbftMessage.signer) := by
  obtain ⟨r, hstored⟩ := h.stored hq
  obtain ⟨hlength, hpairs, -, -⟩ := h.aggregate_spec hq hd ha
  refine ⟨?_, (aggregateCommitMessages_eq_ok ha hstored).2.2⟩
  rw [← SignedSSVMessage.map_snd_pairs hlength, hpairs]
  apply KeySort.pairwise_lt_insertionSort
  rw [h.map_snd_flatMap_pairs hq]
  exact h.nodup

theorem CommitQuorum.validate_aggregate (ha : q.aggregateCommitMessages ms = .ok a) :
    a.validate = .ok () := by
  obtain ⟨hlength, hpairs, hssv, -⟩ := h.aggregate_spec hq hd ha
  obtain ⟨hsorted, hids⟩ := h.operatorIds_spec hq hd ha
  have hsound : ∀ m ∈ ms, m.Sound := fun m hm => (h.admissible m hm).sound hq.grounded
  obtain ⟨m, hm, hvalid⟩ := h.exists_validated
  refine SignedSSVMessage.validate_eq_ok_iff.mpr ⟨⟨?_, ?_, ?_, ?_, hlength.symm⟩, ?_⟩
  · intro sig hsig
    rw [← SignedSSVMessage.map_fst_pairs hlength, hpairs] at hsig
    obtain ⟨pair, hpair, rfl⟩ := List.mem_map.mp hsig
    obtain ⟨m', hm', hpair'⟩ := List.mem_flatMap.mp ((List.mem_insertionSort _).mp hpair)
    exact (hsound m' hm').wellFormed.signature_size _ (List.of_mem_zip hpair').1
  · exact List.ne_nil_of_mem (hids.mem_iff.mpr (List.mem_map_of_mem hm))
  · intro i hi
    obtain ⟨m', hm', rfl⟩ := List.mem_map.mp (hids.mem_iff.mp hi)
    apply (hsound m' hm').wellFormed.operatorIds_ne_zero
    rw [h.operatorIds_eq m' hm']
    exact List.mem_singleton_self _
  · exact hids.nodup_iff.mpr h.nodup
  · rw [hssv m hm]
    exact hvalid.validate_ssvMessage

theorem CommitQuorum.hasQuorum_aggregate (ha : q.aggregateCommitMessages ms = .ok a) :
    q.hasQuorum [a] = true ∧ ∀ i ∈ a.operatorIds.toList, i ∈ q.config.committeeMembers.toList := by
  obtain ⟨hsorted, hids⟩ := h.operatorIds_spec hq hd ha
  have hmem : ∀ i ∈ a.operatorIds.toList, i ∈ q.config.committeeMembers.toList := by
    intro i hi
    obtain ⟨m, hm, rfl⟩ := List.mem_map.mp (hids.mem_iff.mp hi)
    exact h.mem_committee m hm
  refine ⟨hasQuorum_iff.mpr ?_, hmem⟩
  have hcard : a.operatorIds.toList.toFinset.card = ms.length := by
    rw [List.toFinset_card_of_nodup (hids.nodup_iff.mpr h.nodup), hids.length_eq, List.length_map]
  refine h.quorum.trans (hcard.ge.trans (Finset.card_le_card fun i hi => ?_))
  rw [List.mem_toFinset] at hi
  exact mem_uniqueOperators.mpr ⟨⟨a, List.mem_singleton_self _, hi⟩, hmem i hi⟩

end

theorem CommitQuorum.semantics_aggregate (hlaw : QbftData.Lawful D ctx.crypto.hashData)
    (hq : q.Reachable ctx)
    (hmembers : ∀ i, i ∈ ctx.committeeMembers.toList ↔ i ∈ q.config.committeeMembers.toList)
    (h : CommitQuorum ctx q v ms) (hd : q.data v = some d)
    (ha : q.aggregateCommitMessages ms = .ok a) (hmsg : ∀ m ∈ ms, m.qbftMessage = msg) :
    ctx.validateConsensusMessageSemantics a msg = .ok () := by
  obtain ⟨-, -, hssv, hdata⟩ := h.aggregate_spec hq hd ha
  obtain ⟨-, hids⟩ := h.operatorIds_spec hq hd ha
  obtain ⟨m, hm, hvalid⟩ := h.exists_validated
  obtain ⟨-, -, hconsensus⟩ := ValidationContext.validateSsvMessage_eq_ok hvalid.validate_eq
  obtain ⟨-, -, hround, hjust, -⟩ := ValidationContext.validateConsensusMessage_eq_ok hconsensus
  rw [hmsg m hm] at hround hjust
  have hlength : a.operatorIds.toList.length = ms.length := by
    rw [hids.length_eq, List.length_map]
  have hlen : ctx.committeeMembers.len = q.config.committeeMembers.len := by
    rw [← IndexSet.card_toFinset, ← IndexSet.card_toFinset]
    congr 1
    ext i
    rw [List.mem_toFinset, List.mem_toFinset]
    exact hmembers i
  have hquorum : quorumSize ctx.committeeMembers.len ≤ ms.length := by
    rw [hlen]
    exact h.quorum
  have htype : msg.qbftMessageType = .commit := hmsg m hm ▸ h.type_eq m hm
  have hhash : ctx.crypto.hashData a.fullData.toList = msg.root := by
    rw [hdata, ← hlaw.hash_eq, (hq.hashedData hlaw).hash_data hd, ← hmsg m hm, h.root_eq m hm]
  have hone := h.one_lt_length
  have hsigners : ctx.validateSignersAndFullData a msg = .ok () := by
    unfold ValidationContext.validateSignersAndFullData
    simp only [hlength, htype, hhash]
    rw [if_neg (by simp), if_neg (by omega), if_neg, if_neg (by simp)]
    rintro ⟨-, h' | ⟨-, h'⟩⟩
    · cases h'
    · omega
  have hround' : ValidationContext.validateRoundAndIdentifier a msg = .ok () := by
    unfold ValidationContext.validateRoundAndIdentifier at hround ⊢
    rwa [hssv m hm]
  rw [ValidationContext.validateConsensusMessageSemantics, hsigners, hround']
  exact hjust

/-- A quorum of commits that sign one message is aggregated to a message that lists
the signers in increasing order, each with its signature, and is the same for every
order of the commits.  It passes the structural checks and the checks of the validator
on messages of several signers, and every instance of the committee and height whose
data validator accepts the data takes it, in whatever round it is. -/
theorem aggregated_commit_accepted (hlaw : QbftData.Lawful D ctx.crypto.hashData)
    (hq : q.Reachable ctx)
    (hmembers : ∀ i, i ∈ ctx.committeeMembers.toList ↔ i ∈ q.config.committeeMembers.toList)
    (h : CommitQuorum ctx q v ms) (hd : q.data v = some d)
    (hfits : (QbftData.asSszBytes d).length ≤ ssvMessageFullDataLen) :
    ∃ a msg, q.aggregateCommitMessages ms = .ok a ∧ (∀ m ∈ ms, m.qbftMessage = msg) ∧
      a.operatorIds.toList.Pairwise (· < ·) ∧
      a.pairs.Perm (ms.flatMap fun m => m.signedMessage.pairs) ∧
      (∀ ms', ms.Perm ms' → q.aggregateCommitMessages ms' = .ok a) ∧
      a.validate = .ok () ∧
      ctx.validateConsensusMessageSemantics a msg = .ok () ∧
      ∀ p : Qbft F D, SameCommittee q p → p.dataValidator d p.startData = true →
        p.validateMessage ⟨a, msg⟩ = .ok (.hashOnly v, ⟨0⟩) ∧
        (p.receivedDecided ⟨a, msg⟩).2 = .ok () ∧
        (p.receive ⟨a, msg⟩).2 = .ok () ∧
        ((∀ v', p.completed ≠ some (.success v')) →
          (p.receive ⟨a, msg⟩).1.completed = some (.success v)) := by
  obtain ⟨r, hstored⟩ := h.stored hq
  have hne : ms ≠ [] := List.ne_nil_of_length_pos (zero_lt_one.trans h.one_lt_length)
  obtain ⟨a, ha⟩ := exists_aggregateCommitMessages hstored hne h.length_le h.uniform h.root_eq hd
    hfits
  obtain ⟨msg, hmsg, hpos⟩ := h.exists_qbftMessage hq
  obtain ⟨-, hpairs, hssv, hdata⟩ := h.aggregate_spec hq hd ha
  obtain ⟨hsorted, hids⟩ := h.operatorIds_spec hq hd ha
  obtain ⟨m, hm⟩ := List.exists_mem_of_ne_nil ms hne
  have hroot : msg.root = v := hmsg m hm ▸ h.root_eq m hm
  have htype : msg.qbftMessageType = .commit := hmsg m hm ▸ h.type_eq m hm
  refine ⟨a, msg, ha, hmsg, hsorted, ?_, fun ms' hperm => h.aggregate_perm hq hd hfits ha hperm,
    h.validate_aggregate hq hd ha, h.semantics_aggregate hlaw hq hmembers hd ha hmsg, ?_⟩
  · rw [hpairs]
    exact List.perm_insertionSort _ _
  · intro p hp hvalid
    obtain ⟨hquorum, hmem⟩ := h.hasQuorum_aggregate hq hd ha
    have hlength : 1 < a.operatorIds.toList.length := by
      rw [hids.length_eq, List.length_map]
      exact h.one_lt_length
    have hquorum' : p.hasQuorum [a] = true := (hp.hasQuorum_eq _).trans hquorum
    have hvalidate := validateMessage_of_quorum (q := p) (w := ⟨a, msg⟩) htype
      (by rw [hp.height_eq, ← h.height_eq m hm, hmsg m hm])
      (fun i hi => (hp.mem_iff i).mpr (hmem i hi)) hlength hquorum'
    have hdecode : QbftData.fromSszBytes a.fullData.toList = some d := by
      rw [hdata, hlaw.fromSszBytes_asSszBytes]
    have hdecided := receivedDecided_of_quorum (q := p) (w := ⟨a, msg⟩) hquorum' hdecode hvalid
    have hreceive : p.receive ⟨a, msg⟩ = ((p.receivedDecided ⟨a, msg⟩).1,
        (p.receivedDecided ⟨a, msg⟩).2.mapError .error) := by
      unfold receive
      rw [hvalidate]
      simp only [dif_pos hpos, dispatch, htype, if_neg hlength.ne']
    refine ⟨hroot ▸ hvalidate, hdecided.1, ?_, fun hnew => ?_⟩
    · rw [hreceive, hdecided.1]
      rfl
    · rw [hreceive, ← hroot]
      exact hdecided.2 hnew

end Main

end Qbft

namespace Sample

def threeCommits : List WrappedQbftMessage :=
  [⟨4⟩, ⟨2⟩, ⟨3⟩].map fun i => signed i (message .commit 1 (QbftData.hash (⟨1⟩ : Vote)))

theorem commitQuorum_threeCommits :
    Qbft.CommitQuorum ctx (instanceOf ⟨1⟩ first_mem) (QbftData.hash (⟨1⟩ : Vote)) threeCommits where
  admissible := by
    have hvalid : ∀ m ∈ threeCommits, ctx.Validated m := by decide +kernel
    exact fun m hm => Or.inl (hvalid m hm)
  type_eq := by decide +kernel
  height_eq := by decide +kernel
  root_eq := by decide +kernel
  operatorIds_eq := by decide +kernel
  mem_committee := by decide +kernel
  uniform := by decide +kernel
  nodup := by decide +kernel
  quorum := by decide +kernel

/-- Operator 1 aggregates the commits, and operator 2 takes the result in the second
round. -/
theorem aggregated_threeCommits :
    ∃ a msg, (instanceOf ⟨1⟩ first_mem).aggregateCommitMessages threeCommits = .ok a ∧
      a.validate = .ok () ∧ ctx.validateConsensusMessageSemantics a msg = .ok () ∧
      (((instanceOf ⟨2⟩ (by decide)).apply .endRound).receive ⟨a, msg⟩).1.completed =
        some (.success (QbftData.hash (⟨1⟩ : Vote))) := by
  have hdata : (instanceOf ⟨1⟩ first_mem).data (QbftData.hash (⟨1⟩ : Vote)) = some ⟨1⟩ := by
    decide +kernel
  have hmembers : ∀ i, i ∈ ctx.committeeMembers.toList ↔
      i ∈ (instanceOf ⟨1⟩ first_mem).config.committeeMembers.toList := fun i => Iff.rfl
  obtain ⟨a, msg, ha, -, -, -, -, hvalidate, hsemantics, hreceive⟩ :=
    Qbft.aggregated_commit_accepted lawful_vote (reachable_instanceOf first_mem) hmembers
      commitQuorum_threeCommits hdata (by decide)
  have hsame : Qbft.SameCommittee (instanceOf ⟨1⟩ first_mem)
      ((instanceOf ⟨2⟩ (by decide)).apply .endRound) := ⟨by decide +kernel, by decide +kernel⟩
  have hnew : ((instanceOf ⟨2⟩ (by decide)).apply .endRound).completed = none := by decide +kernel
  refine ⟨a, msg, ha, hvalidate, hsemantics, (hreceive _ hsame rfl).2.2.2 fun v' hv' => ?_⟩
  rw [hnew] at hv'
  cases hv'

end Sample

end Anchor
