import Mathlib
import Anchor.Qbft.Stored

/-!
# Prepared evidence

An instance that prepared a value can always prove it: the prepares it counted
stay in their container, the value stays in the data map, and the round change
built from them is accepted by every instance of the committee.
-/

namespace Anchor

open Ssz

namespace Qbft

variable {F D : Type}

/-! ## Sizes -/

theorem length_data_le {m : SignedSSVMessage} {msg : QbftMessage}
    (hdecode : QbftMessage.fromSszBytes m.ssvMessage.data.toList = some msg)
    (hrc : msg.roundChangeJustification.toList = []) (hp : msg.prepareJustification.toList = []) :
    m.ssvMessage.data.toList.length ≤ 132 := by
  have hid := msg.identifier.length_le
  rw [← QbftMessage.asSszBytes_of_fromSszBytes hdecode, QbftMessage.length_asSszBytes]
  simp only [ByteLists.encode, hrc, hp, List.map_nil, length_encodeList, List.length_nil,
    List.flatten_nil]
  omega

theorem length_single_le {m : SignedSSVMessage} (hone : m.signatures.toList.length = 1)
    (hids : m.operatorIds.toList.length = 1) {n : ℕ} (hdata : m.ssvMessage.data.toList.length ≤ n) :
    m.withoutFullData.asSszBytes.length ≤ 352 + n := by
  obtain ⟨sig, hsig⟩ := List.length_eq_one_iff.mp hone
  have hlen := SignedSSVMessage.length_encode_of_single hsig
  have hbound := sig.length_le
  rw [SignedSSVMessage.length_asSszBytes]
  simp only [SignedSSVMessage.operatorIds_withoutFullData,
    SignedSSVMessage.ssvMessage_withoutFullData,
    SignedSSVMessage.signatures_withoutFullData, hids, hlen]
  simp only [SignedSSVMessage.withoutFullData, VariableList.toList_empty, List.length_nil]
  omega

variable [LeaderFunction F]

section Stored

variable {q : Qbft F D} {r : Round} {m : WrappedQbftMessage}

theorem Stored.isValidPrepareJustification (h : q.Stored .prepare r m) :
    q.isValidPrepareJustificationForRoundAndRoot r m.qbftMessage.root
      m.signedMessage.withoutFullData = .ok () := by
  have hids := h.operatorIds_eq
  have hsigs := h.sound.wellFormed.length_signatures
  rw [hids, List.length_singleton] at hsigs
  simp [isValidPrepareJustificationForRoundAndRoot, hids, hsigs, h.sound.decoded, h.type_eq,
    h.height_eq, h.round_eq, checkCommittee, h.mem_committee]

theorem Stored.length_prepare_le (h : q.Stored .prepare r m) :
    m.signedMessage.withoutFullData.asSszBytes.length ≤ 484 := by
  have hids : m.signedMessage.operatorIds.toList.length = 1 := by simp [h.operatorIds_eq]
  have hsigs : m.signedMessage.signatures.toList.length = 1 := by
    rw [h.sound.wellFormed.length_signatures, hids]
  have hdata := length_data_le h.sound.decoded
    (h.sound.roundChangeJustification_eq (Or.inl h.type_eq))
    (h.sound.prepareJustification_eq (by simp [h.type_eq]))
  exact length_single_le hsigs hids hdata

end Stored

section Counting

variable {q : Qbft F D}

section

variable (hq : q.ContainersOk) (t : QbftMessageType) (r : Round) (p : WrappedQbftMessage → Bool)
include hq

theorem ContainersOk.signersWhere_subset :
    (q.container t).signersWhere r p ⊆ q.config.committee := by
  intro a ha
  obtain ⟨m, hm, -, rfl⟩ := MessageContainer.mem_signersWhere.mp ha
  rw [Config.committee, List.mem_toFinset]
  exact (hq.stored t r m hm).mem_committee

theorem ContainersOk.length_filter_le :
    (((q.container t).getMessagesForRound r).filter p).length ≤ 13 := by
  rw [← (hq.wellFormed t).card_signersWhere]
  exact (Finset.card_le_card (hq.signersWhere_subset t r p)).trans q.config.card_committee_le

theorem ContainersOk.hasQuorum_filter :
    q.hasQuorum ((((q.container t).getMessagesForRound r).filter p).map
        WrappedQbftMessage.signedMessage) = true ↔
      q.config.quorumSize ≤ (((q.container t).getMessagesForRound r).filter p).length := by
  have hunique : q.uniqueOperators ((((q.container t).getMessagesForRound r).filter p).map
      WrappedQbftMessage.signedMessage) = (q.container t).signersWhere r p := by
    ext a
    rw [mem_uniqueOperators, MessageContainer.mem_signersWhere]
    constructor
    · rintro ⟨⟨s, hs, ha⟩, -⟩
      obtain ⟨m, hm, rfl⟩ := List.mem_map.mp hs
      obtain ⟨hm, hp⟩ := List.mem_filter.mp hm
      rw [(hq.stored t r m hm).operatorIds_eq, List.mem_singleton] at ha
      exact ⟨m, hm, hp, ha.symm⟩
    · rintro ⟨m, hm, hp, rfl⟩
      refine ⟨⟨m.signedMessage, ?_, ?_⟩, (hq.stored t r m hm).mem_committee⟩
      · exact List.mem_map_of_mem (List.mem_filter.mpr ⟨hm, hp⟩)
      · rw [(hq.stored t r m hm).operatorIds_eq]
        exact List.mem_singleton.mpr rfl
  rw [hasQuorum_iff, hunique, (hq.wellFormed t).card_signersWhere]

end

theorem ContainersOk.fits_prepareJustifications (hq : q.ContainersOk) {n : ℕ} (hn : 484 ≤ n) :
    Fits n q.getRoundChangePrepareJustifications := by
  unfold getRoundChangePrepareJustifications
  split
  · rename_i v r _ _
    dsimp only
    split_ifs
    · refine ⟨?_, ?_⟩
      · intro s hs
        obtain ⟨m, hm, rfl⟩ := List.mem_map.mp hs
        have hstored := hq.stored .prepare r m (List.mem_filter.mp hm).1
        exact hstored.length_prepare_le.trans hn
      · rw [List.length_map]
        exact hq.length_filter_le .prepare r _
    · exact fits_nil n
  · exact fits_nil n

theorem RoundChangeOut.eq_sent [QbftData D] (hq : q.ContainersOk) {b b' : Bool}
    {out : List UnsignedWrappedQbftMessage} (h : RoundChangeOut q b b' out) :
    b' = false ∧ ∃ l, Encodes q.getRoundChangePrepareJustifications l ∧
      out = [q.unsignedMessage .roundChange (q.getMessageData .roundChange Hash256.default) l
        VariableList.empty] := by
  cases h with
  | failed hfits => exact absurd (hq.fits_prepareJustifications (by decide)) hfits
  | sent hl => exact ⟨rfl, _, hl, rfl⟩

end Counting

variable [QbftData D]

/-! ## The invariant -/

/-- The value being voted on is in the data map, and what was last prepared is
backed by a stored quorum. -/
structure PreparedOk (q : Qbft F D) : Prop where
  state_data : ∀ v, q.state = .prepare v ∨ q.state = .commit v → (q.data v).isSome
  both : q.lastPreparedRound.isSome = q.lastPreparedValue.isSome
  quorum : ∀ r v, q.lastPreparedRound = some r → q.lastPreparedValue = some v →
    q.config.quorumSize ≤
      ((q.prepareContainer.getMessagesForRound r).filter fun m => m.qbftMessage.root = v).length
  data : ∀ v, q.lastPreparedValue = some v → (q.data v).isSome
  round_le : ∀ r, q.lastPreparedRound = some r → r ≤ q.currentRound

section Transition

variable {q q' : Qbft F D} {e : Event}

theorem ProposalOut.data_mono {data : Hash256 → Option D} {out : List UnsignedWrappedQbftMessage}
    (h : ProposalOut q data out) {v : Hash256} (hv : (q.data v).isSome) : (data v).isSome := by
  cases h with
  | waiting => exact hv
  | failed hd hleader => exact isSome_data_insertData q _ _ hv
  | sent hd hleader hl => exact isSome_data_insertData q _ _ hv

theorem Transition.data_mono (h : Transition q e q') {v : Hash256} (hv : (q.data v).isSome) :
    (q'.data v).isSome := by
  cases h with
  | proposalRepeated hw hsender => exact isSome_data_insertData q _ _ hv
  | proposalStored hw hadd hflag hround => exact isSome_data_insertData q _ _ hv
  | proposalAccepted hw hadd hflag => exact isSome_data_insertData q _ _ hv
  | decided hw => exact isSome_data_insertData q _ _ hv
  | roundChangeQuorum hw hadd hbefore hquorum hout hstart => exact hout.data_mono hv
  | _ => exact hv

theorem Transition.sublist (h : Transition q e q') (t : QbftMessageType) (r : Round) :
    ((q.container t).getMessagesForRound r).Sublist ((q'.container t).getMessagesForRound r) := by
  rcases h.container_cases t with heq | ⟨w, s, r', b, -, -, -, -, -, hadd⟩
  · rw [heq]
  · exact MessageContainer.sublist_getMessagesForRound_of_addMessage hadd r

/-- What was last prepared changes only when a new quorum of prepares completes. -/
theorem Transition.lastPrepared_cases (h : Transition q e q') :
    (q'.lastPreparedRound = q.lastPreparedRound ∧ q'.lastPreparedValue = q.lastPreparedValue) ∨
      ∃ v, q'.lastPreparedRound = some q.currentRound ∧ q'.lastPreparedValue = some v ∧
        q'.currentRound = q.currentRound ∧ q.state = .prepare v ∧ q'.state = .commit v ∧
        q'.prepareContainer.hasQuorum q.currentRound = some v ∧
        q'.sent = q.sent ++ [q.unsignedMessage .commit ⟨0, q.currentRound.toU64, v, []⟩
          VariableList.empty VariableList.empty] := by
  cases h with
  | prepared hw hadd hflag hquorum hstate =>
    exact Or.inr ⟨_, rfl, rfl, rfl, hstate, rfl, hquorum, rfl⟩
  | _ => exact Or.inl ⟨rfl, rfl⟩

/-- A step that votes on a value keeps voting on it or has just accepted it. -/
theorem Transition.state_cases (h : Transition q e q') {v : Hash256}
    (hv : q'.state = .prepare v ∨ q'.state = .commit v) :
    (q.state = .prepare v ∨ q.state = .commit v) ∨ (q'.data v).isSome := by
  cases h with
  | @proposalAccepted w s r d c hw hadd hflag =>
    rcases hv with hv | hv
    · cases hv
      exact Or.inr (by simp)
    · cases hv
  | prepared hw hadd hflag hquorum hstate =>
    rcases hv with hv | hv
    · cases hv
    · cases hv
      exact Or.inl (Or.inl hstate)
  | committed hw hadd hflag hroot hquorum hstate haggregate => rcases hv with hv | hv <;> cases hv
  | decided hw => rcases hv with hv | hv <;> cases hv
  | roundChangeQuorum hw hadd hbefore hquorum hout hstart => rcases hv with hv | hv <;> cases hv
  | roundChangePartial hw hadd hnone hlowest hout => rcases hv with hv | hv <;> cases hv
  | timedOut hlast => rcases hv with hv | hv <;> cases hv
  | timeout hnext hmax hout => rcases hv with hv | hv <;> cases hv
  | _ => exact Or.inl hv

theorem PreparedOk.transition (hq : q.PreparedOk) (hc' : q'.ContainersOk)
    (h : Transition q e q') : q'.PreparedOk := by
  have hconfig := h.static.1
  have hstate : ∀ v, q'.state = .prepare v ∨ q'.state = .commit v → (q'.data v).isSome := by
    intro v hv
    rcases h.state_cases hv with hv | hdata
    · exact h.data_mono (hq.state_data v hv)
    · exact hdata
  rcases h.lastPrepared_cases with
    ⟨hround, hvalue⟩ | ⟨v, hround, hvalue, hcur, hprep, -, hquorum, -⟩
  · refine ⟨hstate, ?_, ?_, ?_, ?_⟩
    · rw [hround, hvalue]
      exact hq.both
    · intro r v hr hv
      rw [hround] at hr
      rw [hvalue] at hv
      rw [hconfig]
      exact (hq.quorum r v hr hv).trans ((h.sublist .prepare r).filter _).length_le
    · intro v hv
      rw [hvalue] at hv
      exact h.data_mono (hq.data v hv)
    · intro r hr
      rw [hround] at hr
      exact (hq.round_le r hr).trans h.currentRound_le
  · refine ⟨hstate, by simp [hround, hvalue], ?_, ?_, ?_⟩
    · intro r w hr hw
      rw [hround] at hr
      rw [hvalue] at hw
      cases hr
      cases hw
      have hsize : q'.prepareContainer.quorumSize = q'.config.quorumSize :=
        hc'.quorumSize_eq .prepare
      rw [← hsize]
      exact MessageContainer.le_length_filter_of_hasQuorum hquorum
    · intro w hw
      rw [hvalue] at hw
      cases hw
      exact h.data_mono (hq.state_data v (Or.inl hprep))
    · intro r hr
      rw [hround] at hr
      cases hr
      exact hcur.ge

end Transition

theorem Reachable.preparedOk {K : Type} {ctx : ValidationContext K} {q : Qbft F D}
    (h : Reachable ctx q) : q.PreparedOk := by
  refine h.invariant ?_ ?_
  · intro config startData dataValidator identifier data out _
    exact ⟨by simp [initial], rfl, by simp [initial], by simp [initial], by simp [initial]⟩
  · intro q e q' hr hsound ht hq
    exact hq.transition ((hr.containersOk).transition hsound ht) ht

end Qbft

end Anchor
