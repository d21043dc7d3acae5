import Mathlib
import Anchor.Qbft.Sent
import Anchor.Qbft.Simulation

/-!
# Round changes of a prepared instance

An instance that prepared a value rebuilds the proof of it from its containers
whenever it leaves a round.  The proof is always there, always fits, and is
accepted by every instance of the committee.
-/

namespace Anchor

open Ssz

namespace Qbft

variable {F D : Type} [LeaderFunction F] [QbftData D] {q q' : Qbft F D} {e : Event} {r : Round}
  {v : Hash256}

omit [LeaderFunction F] [QbftData D] in
@[simp] theorem hasQuorum_map_withoutFullData (q : Qbft F D) (ms : List SignedSSVMessage) :
    q.hasQuorum (ms.map SignedSSVMessage.withoutFullData) = q.hasQuorum ms := by
  simp [hasQuorum, uniqueOperators, List.flatMap_map]

section

variable (hc : q.ContainersOk) (hp : q.PreparedOk) (hr : q.lastPreparedRound = some r)
  (hv : q.lastPreparedValue = some v)
include hc hp hr hv

omit [QbftData D] in
theorem getRoundChangePrepareJustifications_eq :
    q.getRoundChangePrepareJustifications =
      ((q.prepareContainer.getMessagesForRound r).filter fun m => m.qbftMessage.root = v).map
        WrappedQbftMessage.signedMessage := by
  have hquorum : q.hasQuorum (((q.prepareContainer.getMessagesForRound r).filter
      fun m => m.qbftMessage.root = v).map WrappedQbftMessage.signedMessage) = true :=
    (hc.hasQuorum_filter .prepare r _).mpr (hp.quorum r v hr hv)
  simp only [getRoundChangePrepareJustifications, hr, hv]
  rw [if_pos hquorum]

omit [QbftData D] in
theorem prepareQuorum_prepareJustifications :
    q.PrepareQuorum r v
      (q.getRoundChangePrepareJustifications.map SignedSSVMessage.withoutFullData) := by
  rw [getRoundChangePrepareJustifications_eq hc hp hr hv]
  constructor
  · rw [hasQuorum_map_withoutFullData]
    exact (hc.hasQuorum_filter .prepare r _).mpr (hp.quorum r v hr hv)
  · intro s hs
    obtain ⟨s', hs', rfl⟩ := List.mem_map.mp hs
    obtain ⟨m, hm, rfl⟩ := List.mem_map.mp hs'
    obtain ⟨hm, hroot⟩ := List.mem_filter.mp hm
    have hvalid := (hc.stored .prepare r m hm).isValidPrepareJustification
    rw [of_decide_eq_true hroot] at hvalid
    exact isValidPrepareJustification_iff.mp hvalid

omit [QbftData D] in
theorem PreparedOk.exists_signers :
    ∃ S ⊆ q.config.committee, q.config.quorumSize ≤ S.card ∧ ∀ s ∈ S,
      ∃ m ∈ q.prepareContainer.getMessagesForRound r,
        m.signedMessage.operatorIds.toList = [s] ∧ m.qbftMessage.qbftMessageType = .prepare ∧
          m.qbftMessage.round = r.toU64 ∧ m.qbftMessage.root = v := by
  refine ⟨q.prepareContainer.signersWhere r fun m => m.qbftMessage.root = v,
    hc.signersWhere_subset .prepare r _, ?_, ?_⟩
  · have hcard : (q.prepareContainer.signersWhere r fun m => m.qbftMessage.root = v).card = _ :=
      (hc.wellFormed .prepare).card_signersWhere r _
    rw [hcard]
    exact hp.quorum r v hr hv
  · intro s hs
    obtain ⟨m, hm, hroot, rfl⟩ := MessageContainer.mem_signersWhere.mp hs
    have hstored := hc.stored .prepare r m hm
    exact ⟨m, hm, hstored.operatorIds_eq, hstored.type_eq, hstored.round_eq,
      of_decide_eq_true hroot⟩

end

theorem Transition.roundChangeOut (h : Transition q e q')
    (hround : q.currentRound < q'.currentRound) (hstate : q'.state = .sentRoundChange) :
    ∃ b b' out, q'.sent = q.sent ++ out ∧ RoundChangeOut q' b b' out := by
  cases h with
  | @roundChangePartial w s r r' c b accepted out hw hadd hnone hlowest hout =>
    refine ⟨false, accepted, out, rfl, ?_⟩
    cases hout with
    | failed hfits => exact RoundChangeOut.failed hfits
    | sent hl => exact RoundChangeOut.sent hl
  | @timeout r accepted out hnext hmax hout =>
    refine ⟨q.proposalAcceptedForCurrentRound, accepted, out, rfl, ?_⟩
    cases hout with
    | failed hfits => exact RoundChangeOut.failed hfits
    | sent hl => exact RoundChangeOut.sent hl
  | proposalAccepted hw hadd hflag => cases hstate
  | roundChangeQuorum hw hadd hbefore hquorum hout hstart => cases hstate
  | _ => exact absurd hround (lt_irrefl _)

theorem RoundChangeOut.prepared {b b' : Bool} {out : List UnsignedWrappedQbftMessage}
    (h : RoundChangeOut q b b' out) (hne : ∀ d : D, QbftData.asSszBytes d ≠ [])
    (hc : q.ContainersOk) (hp : q.PreparedOk) (hr : q.lastPreparedRound = some r)
    (hv : q.lastPreparedValue = some v) (hlt : r < q.currentRound) :
    ∃ u, out = [u] ∧ u.qbftMessage.qbftMessageType = .roundChange ∧
      u.qbftMessage.dataRound = r.toU64 ∧ u.qbftMessage.root = v ∧
      u.unsignedMessage.fullData ≠ [] ∧
      ∀ p, SameCommittee q p → p.checkRoundChange u.qbftMessage = .ok () := by
  obtain ⟨-, l, hl, rfl⟩ := h.eq_sent hc
  have hdata : q.getMessageData .roundChange Hash256.default = ⟨r.toU64, q.currentRound.toU64, v,
      ((q.data v).map QbftData.asSszBytes).getD []⟩ := by
    simp only [getMessageData, hr, hv]
  rw [hdata]
  refine ⟨_, rfl, rfl, rfl, rfl, ?_, fun p hsame => ?_⟩
  · obtain ⟨d, hd⟩ := Option.isSome_iff_exists.mp (hp.data v hv)
    change ((q.data v).map QbftData.asSszBytes).getD [] ≠ []
    rw [hd]
    exact hne d
  · rw [hsame.checkRoundChange_eq, checkRoundChange_iff]
    intro hprepared
    refine ⟨toU64_lt_iff.mpr hlt, _, decodeAll_of_encodes hl, ?_⟩
    change q.PrepareQuorum (Round.ofU64 r.toU64 (toU64_pos r)) v _
    rw [Round.ofU64_toU64]
    exact prepareQuorum_prepareJustifications hc hp hr hv

/-- Prepared evidence is never lost: a quorum of prepares and the value stay
stored, and whatever happens next, an instance that leaves its round sends a round
change that reports them and that every instance of the committee accepts. -/
theorem prepared_evidence {K : Type} {ctx : ValidationContext K}
    (hne : ∀ d : D, QbftData.asSszBytes d ≠ []) (hq : Reachable ctx q)
    (hr : q.lastPreparedRound = some r) (hv : q.lastPreparedValue = some v) :
    (∃ S ⊆ q.config.committee, q.config.quorumSize ≤ S.card ∧ ∀ s ∈ S,
      ∃ m ∈ q.prepareContainer.getMessagesForRound r,
        m.signedMessage.operatorIds.toList = [s] ∧ m.qbftMessage.qbftMessageType = .prepare ∧
          m.qbftMessage.round = r.toU64 ∧ m.qbftMessage.root = v) ∧
    (q.data v).isSome ∧
    ∀ e, q.Admissible ctx e → ∀ out, (q.apply e).sent = q.sent ++ out →
      (∀ u ∈ out, u.qbftMessage.qbftMessageType = .roundChange →
        0 < u.qbftMessage.dataRound.toNat ∧ u.qbftMessage.dataRound = r.toU64 ∧
        u.qbftMessage.root = v ∧ u.unsignedMessage.fullData ≠ [] ∧
        ∀ p, SameCommittee q p → p.checkRoundChange u.qbftMessage = .ok ()) ∧
      (q.currentRound < (q.apply e).currentRound → (q.apply e).state = .sentRoundChange →
        ∃ u ∈ out, u.qbftMessage.qbftMessageType = .roundChange) := by
  have hc := hq.containersOk
  have hp := hq.preparedOk
  refine ⟨hp.exists_signers hc hr hv, hp.data v hv, fun e he out hout => ?_⟩
  have ht := he.transition hq.grounded
  have hc' := (hq.step he).containersOk
  have hp' := (hq.step he).preparedOk
  -- Leaving the round does not change what was last prepared.
  have hleave : q.currentRound < (q.apply e).currentRound →
      (q.apply e).state = .sentRoundChange → ∃ u, out = [u] ∧
        u.qbftMessage.qbftMessageType = .roundChange ∧ u.qbftMessage.dataRound = r.toU64 ∧
        u.qbftMessage.root = v ∧ u.unsignedMessage.fullData ≠ [] ∧
        ∀ p, SameCommittee (q.apply e) p → p.checkRoundChange u.qbftMessage = .ok () := by
    intro hlt hstate
    obtain ⟨b, b', out', hsent, hrc⟩ := ht.roundChangeOut hlt hstate
    rw [hout] at hsent
    obtain rfl := List.append_cancel_left hsent
    rcases ht.lastPrepared_cases with ⟨hround, hvalue⟩ | ⟨-, -, -, hcur, -⟩
    · exact hrc.prepared hne hc' hp' (hround.trans hr) (hvalue.trans hv)
        ((hp.round_le r hr).trans_lt hlt)
    · exact absurd hlt hcur.not_gt
  constructor
  · intro u hu htype
    have hmem : u ∈ (q.apply e).sent := hout ▸ List.mem_append_right _ hu
    obtain ⟨hlt, hstate⟩ : q.currentRound < (q.apply e).currentRound ∧
        (q.apply e).state = .sentRoundChange := by
      rcases ht.emission hc with hsame | ⟨u', hnew, -, hemission⟩
      · have hnil : out = [] := by
          rw [hsame] at hout
          exact List.self_eq_append_right.mp hout
        rw [hnil] at hu
        cases hu
      · rw [hout] at hnew
        obtain rfl := List.append_cancel_left hnew
        obtain rfl := List.mem_singleton.mp hu
        cases hemission with
        | roundChange _ hlt hstate _ _ => exact ⟨hlt, hstate⟩
        | proposal htype' _ _ _ => simp [htype] at htype'
        | prepare htype' _ _ => simp [htype] at htype'
        | commit htype' _ _ _ _ => simp [htype] at htype'
    obtain ⟨u', rfl, -, hdata, hroot, hfull, haccept⟩ := hleave hlt hstate
    obtain rfl := List.mem_singleton.mp hu
    refine ⟨?_, hdata, hroot, hfull, fun p hsame => haccept p ?_⟩
    · rw [hdata]
      exact toU64_pos r
    · exact ⟨hsame.committee_eq.trans ht.sameCommittee.committee_eq.symm,
        hsame.height_eq.trans ht.sameCommittee.height_eq.symm⟩
  · intro hlt hstate
    obtain ⟨u, rfl, htype, -⟩ := hleave hlt hstate
    exact ⟨u, List.mem_singleton.mpr rfl, htype⟩

end Qbft

namespace Sample

open Qbft.Action in
def prepareScript : List Qbft.Action :=
  [loopback 0, loopback 1,
    deliver (signed ⟨2⟩ (message .prepare 1 (QbftData.hash (⟨1⟩ : Vote)))),
    deliver (signed ⟨3⟩ (message .prepare 1 (QbftData.hash (⟨1⟩ : Vote))))]

theorem prepared_evidence_prepareScript : ∃ q v, Qbft.Reachable ctx q ∧
    q.lastPreparedRound = some Round.default ∧ q.lastPreparedValue = some v ∧
    (q.data v : Option Vote).isSome ∧
    ∀ out, (q.apply .endRound).sent = (q : Qbft DefaultLeaderFunction Vote).sent ++ out →
      ∃ u ∈ out, u.qbftMessage.qbftMessageType = .roundChange := by
  obtain ⟨q, hq, hr, hv, hlt, hstate⟩ := Qbft.exists_reachable (Q := fun q =>
      q.lastPreparedRound = some Round.default ∧
      q.lastPreparedValue = some (QbftData.hash (⟨1⟩ : Vote)) ∧
      q.currentRound < (q.apply .endRound).currentRound ∧
      (q.apply .endRound).state = .sentRoundChange)
    (reachable_instanceOf (show (⟨1⟩ : OperatorId) ∈ members.toList by decide))
    (show ∃ q' ∈ Qbft.simulate ctx sign _ prepareScript, _ by decide +kernel)
  obtain ⟨-, hdata, hnext⟩ := Qbft.prepared_evidence lawful_vote.asSszBytes_ne_nil hq hr hv
  exact ⟨q, _, hq, hr, hv, hdata, fun out hout => (hnext .endRound trivial out hout).2 hlt hstate⟩

end Sample

namespace Qbft

variable {F D : Type} [LeaderFunction F] {q : Qbft F D} {r : Round} {v : Hash256}

theorem ContainersOk.root_unique (hq : q.ContainersOk) (t : QbftMessageType) {w : Hash256}
    (hv : q.config.quorumSize ≤
      ((q.container t).signersWhere r fun m => m.qbftMessage.root = v).card)
    (hw : q.config.quorumSize ≤
      ((q.container t).signersWhere r fun m => m.qbftMessage.root = w).card) : v = w := by
  by_contra hne
  have hdisjoint : Disjoint ((q.container t).signersWhere r fun m => m.qbftMessage.root = v)
      ((q.container t).signersWhere r fun m => m.qbftMessage.root = w) := by
    rw [Finset.disjoint_left]
    intro a ha ha'
    obtain ⟨m, hm, hroot, rfl⟩ := MessageContainer.mem_signersWhere.mp ha
    obtain ⟨m', hm', hroot', hsigner⟩ := MessageContainer.mem_signersWhere.mp ha'
    obtain rfl := List.inj_on_of_nodup_map ((hq.wellFormed t).nodup r) hm' hm hsigner
    exact hne ((decide_eq_true_eq.mp hroot).symm.trans (decide_eq_true_eq.mp hroot'))
  have hcard := Finset.card_le_card (Finset.union_subset
    (hq.signersWhere_subset t r fun m => m.qbftMessage.root = v)
    (hq.signersWhere_subset t r fun m => m.qbftMessage.root = w))
  rw [Finset.card_union_of_disjoint hdisjoint, q.config.card_committee] at hcard
  have hquorum := q.config.quorumSize_eq
  omega

/-- In every state that an instance reaches, a container reports a root exactly if a quorum of
the committee has a checked message for it, so the order in which roots are counted does not
matter. -/
theorem hasQuorum_exact [QbftData D] {K : Type} {ctx : ValidationContext K} (h : Reachable ctx q)
    (t : QbftMessageType) (r : Round) (v : Hash256) :
    (q.container t).hasQuorum r = some v ↔ ∃ signers ⊆ q.config.committee,
      q.config.quorumSize ≤ signers.card ∧ ∀ i ∈ signers, ∃ m ∈
        (q.container t).getMessagesForRound r,
          m.signer = i ∧ m.qbftMessage.root = v ∧ q.Stored t r m := by
  have hq := h.containersOk
  have hsize := hq.quorumSize_eq t
  constructor
  · intro hquorum
    refine ⟨_, hq.signersWhere_subset t r fun m => m.qbftMessage.root = v,
      hsize ▸ (hq.wellFormed t).quorumSize_le_card hquorum, fun i hi => ?_⟩
    obtain ⟨m, hm, hroot, hsigner⟩ := MessageContainer.mem_signersWhere.mp hi
    exact ⟨m, hm, hsigner, decide_eq_true_eq.mp hroot, hq.stored t r m hm⟩
  · rintro ⟨signers, -, hcard, hsigners⟩
    have hle : q.config.quorumSize ≤
        ((q.container t).signersWhere r fun m => m.qbftMessage.root = v).card := by
      refine hcard.trans (Finset.card_le_card fun i hi => ?_)
      obtain ⟨m, hm, hsigner, hroot, -⟩ := hsigners i hi
      exact MessageContainer.mem_signersWhere.mpr ⟨m, hm, decide_eq_true hroot, hsigner⟩
    cases hresult : (q.container t).hasQuorum r with
    | some w =>
      rw [hq.root_unique t hle (hsize ▸ (hq.wellFormed t).quorumSize_le_card hresult)]
    | none =>
      rw [(hq.wellFormed t).card_signersWhere] at hle
      have hpos : 0 < (q.container t).quorumSize := by
        rw [hsize, q.config.quorumSize_eq]
        omega
      obtain ⟨w, hw⟩ := MessageContainer.exists_hasQuorum hpos (hsize.trans_le hle)
      cases hresult.symm.trans hw

end Qbft

namespace Sample

theorem hasQuorum_exact_prepareScript : ∃ q : Qbft DefaultLeaderFunction Vote,
    Qbft.Reachable ctx q ∧ ∃ signers ⊆ q.config.committee, q.config.quorumSize ≤ signers.card := by
  obtain ⟨q, hq, hquorum⟩ := Qbft.exists_reachable (Q := fun q =>
      (q.container .prepare).hasQuorum Round.default = some (QbftData.hash (⟨1⟩ : Vote)))
    (reachable_instanceOf (show (⟨1⟩ : OperatorId) ∈ members.toList by decide))
    (show ∃ q' ∈ Qbft.simulate ctx sign _ prepareScript, _ by decide +kernel)
  obtain ⟨signers, hsubset, hcard, -⟩ := (Qbft.hasQuorum_exact hq _ _ _).mp hquorum
  exact ⟨q, hq, signers, hsubset, hcard⟩

end Sample

end Anchor
