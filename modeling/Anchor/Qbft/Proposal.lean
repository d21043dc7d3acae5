import Mathlib
import Anchor.Qbft.Prepared
import Anchor.Qbft.RoundStart

/-!
# The proposal of a new leader

A leader that reaches a round change quorum picks a value and prepares for it from
what it holds.  This module says what it picks and when it sends the proposal.
-/

namespace Anchor

open Ssz

namespace Qbft

variable {F D : Type} [LeaderFunction F] [QbftData D]

/-- A leader that holds a round change quorum for its round, after the first one. -/
structure HoldsQuorum (q : Qbft F D) : Prop where
  state_eq : q.state = .awaitingProposal
  round_gt : Round.default < q.currentRound
  quorum : q.roundChangeContainer.hasQuorumDisregardingRoot q.currentRound = true
  containers : q.ContainersOk
  prepared : q.PreparedOk

def roundChanges (q : Qbft F D) : List WrappedQbftMessage :=
  q.roundChangeContainer.getMessagesForRound q.currentRound

/-- The prepares and the value that a leader picks: its own, if it prepared
anything, else those of the highest prepared round change. -/
inductive Choice (q : Qbft F D) : List SignedSSVMessage → Option Hash256 → Prop where
  | own {r : Round} {v : Hash256} (hr : q.lastPreparedRound = some r)
      (hv : q.lastPreparedValue = some v) :
      Choice q q.getRoundChangePrepareJustifications (some v)
  | unprepared (hnone : q.lastPreparedRound = none)
      (hbest : highestPrepared q.roundChanges = none) :
      Choice q [] none
  | highest {best : WrappedQbftMessage} {ps : List SignedSSVMessage}
      (hnone : q.lastPreparedRound = none) (hbest : highestPrepared q.roundChanges = some best)
      (hps : decodeAll best.qbftMessage.roundChangeJustification = some ps) :
      Choice q ps (some best.qbftMessage.root)

section Choice

variable {q : Qbft F D}

omit [QbftData D] in
theorem HoldsQuorum.hasQuorum (h : q.HoldsQuorum) :
    q.hasQuorum (q.roundChanges.map WrappedQbftMessage.signedMessage) = true := by
  have hsize : q.roundChangeContainer.quorumSize = q.config.quorumSize :=
    h.containers.quorumSize_eq .roundChange
  have hpos : 0 < q.roundChangeContainer.quorumSize := by
    rw [hsize, Config.quorumSize_eq]
    exact Nat.succ_pos _
  have hlength := (MessageContainer.hasQuorumDisregardingRoot_iff hpos).mp h.quorum
  have hfilter := (h.containers.hasQuorum_filter .roundChange q.currentRound fun _ => true).mpr
  simp only [List.filter_true] at hfilter
  exact hfilter (hsize ▸ hlength)

omit [QbftData D] in
theorem HoldsQuorum.getRoundChangeJustifications_eq (h : q.HoldsQuorum) :
    q.getRoundChangeJustifications =
      q.roundChanges.map WrappedQbftMessage.signedMessage := by
  unfold getRoundChangeJustifications
  rw [if_neg (not_le.mpr h.round_gt), if_pos h.state_eq]
  exact if_pos h.hasQuorum

omit [QbftData D] in
theorem HoldsQuorum.stored (h : q.HoldsQuorum) {m : WrappedQbftMessage}
    (hm : m ∈ q.roundChanges) : q.Stored .roundChange q.currentRound m :=
  h.containers.stored .roundChange q.currentRound m hm

theorem pos_of_highestPrepared {ms : List WrappedQbftMessage} {best : WrappedQbftMessage}
    (h : highestPrepared ms = some best) : best ∈ ms ∧ 0 < best.qbftMessage.dataRound.toNat := by
  obtain ⟨hmem, hpos⟩ := Pick.mem_of_pick h
  exact ⟨hmem, UInt64.lt_iff_toNat_lt.mp (of_decide_eq_true hpos)⟩

omit [QbftData D] in
theorem Stored.prepareQuorum {r : Round} {m : WrappedQbftMessage} (h : q.Stored .roundChange r m)
    (hpos : 0 < m.qbftMessage.dataRound.toNat) :
    ∃ ps, decodeAll m.qbftMessage.roundChangeJustification = some ps ∧
      q.PrepareQuorum (Round.ofU64 m.qbftMessage.dataRound hpos) m.qbftMessage.root ps :=
  (checkRoundChange_iff.mp h.checked hpos).2

omit [LeaderFunction F] [QbftData D] in
theorem PrepareQuorum.ne_nil {r : Round} {v : Hash256} {ps : List SignedSSVMessage}
    (h : q.PrepareQuorum r v ps) : ps ≠ [] := by
  rintro rfl
  have hcard := hasQuorum_iff.mp h.quorum
  have hquorum := q.config.quorumSize_eq
  simp only [uniqueOperators, List.flatMap_nil, List.filter_nil, List.toFinset_nil,
    Finset.card_empty] at hcard
  omega

omit [QbftData D] in
theorem HoldsQuorum.exists_choice (h : q.HoldsQuorum) :
    ∃ ps v, Choice q ps v ∧ q.getPrepareJustifications = .ok (ps, v) := by
  unfold getPrepareJustifications
  rw [if_neg h.round_gt.ne', if_neg (not_not.mpr h.state_eq)]
  dsimp only
  have hboth := h.prepared.both
  cases hr : q.lastPreparedRound with
  | some r =>
    rw [hr] at hboth
    obtain ⟨v, hv⟩ := Option.isSome_iff_exists.mp hboth.symm
    have hne : q.getRoundChangePrepareJustifications ≠ [] := by
      intro hnil
      apply (prepareQuorum_prepareJustifications h.containers h.prepared hr hv).ne_nil
      rw [hnil]
      rfl
    refine ⟨_, _, Choice.own hr hv, ?_⟩
    simp [hne, hv]
  | none =>
    have hnil : q.getRoundChangePrepareJustifications = [] := by
      simp [getRoundChangePrepareJustifications, hr]
    simp only [hnil, List.isEmpty_nil, Bool.not_true, Bool.false_eq_true, if_false]
    have hquorum : q.hasQuorum ((q.roundChangeContainer.getMessagesForRound
        q.currentRound).map WrappedQbftMessage.signedMessage) = true := h.hasQuorum
    simp only [hquorum, Bool.not_true, Bool.false_eq_true, if_false]
    split
    · rename_i hbest
      exact ⟨_, _, Choice.unprepared hr hbest, rfl⟩
    · rename_i best hbest
      obtain ⟨hmem, hpos⟩ := pos_of_highestPrepared hbest
      obtain ⟨ps, hps, hprepares⟩ := (h.stored hmem).prepareQuorum hpos
      rw [tryDecode_eq_ok_iff.mpr hps]
      simp only [hprepares.quorum, if_true]
      exact ⟨_, _, Choice.highest hr hbest hps, rfl⟩

end Choice

/-! ## Sending it -/

section Sending

variable {q : Qbft F D} {ps : List SignedSSVMessage} {v : Option Hash256}

omit [LeaderFunction F] in
theorem sendProposal_of_choice (h : Hash256) (d : D)
    (hps : q.getPrepareJustifications = .ok (ps, v)) :
    (Fits roundChangeJustificationLength q.getRoundChangeJustifications ∧
      Fits prepareJustificationLength ps ∧
      ∃ l l', Encodes q.getRoundChangeJustifications l ∧ Encodes ps l' ∧
        (q.sendProposal h d).1 = (q.insertData h d).send (q.unsignedMessage .proposal
          ((q.insertData h d).getMessageData .proposal (v.getD h)) l l')) ∨
    (¬ (Fits roundChangeJustificationLength q.getRoundChangeJustifications ∧
      Fits prepareJustificationLength ps) ∧ (q.sendProposal h d).1 = q.insertData h d) := by
  have hps' : (q.insertData h d).getPrepareJustifications = .ok (ps, v) := hps
  unfold sendProposal
  simp only [hps']
  cases hnew : (q.insertData h d).newUnsignedMessage .proposal (v.getD h)
      (q.insertData h d).getRoundChangeJustifications ps with
  | error e =>
    refine Or.inr ⟨?_, rfl⟩
    rintro ⟨hrc, hp⟩
    obtain ⟨u, hu⟩ := (q.insertData h d).exists_newUnsignedMessage .proposal (v.getD h) hrc hp
    cases hnew.symm.trans hu
  | ok u =>
    obtain ⟨l, l', hl, hl', rfl⟩ := newUnsignedMessage_eq_ok hnew
    exact Or.inl ⟨hl.fits, hl'.fits, l, l', hl, hl', rfl⟩

def CarriesData (q : Qbft F D) (m : WrappedQbftMessage) : Prop :=
  m.signedMessage.fullData.toList ≠ [] ∧
    ∃ d, QbftData.fromSszBytes m.signedMessage.fullData.toList = some d ∧
      QbftData.hash d = m.qbftMessage.root ∧ q.dataValidator d q.startData = true

omit [LeaderFunction F] in
theorem carriesData_of_justify
    (hdata : ∀ m, lastHighestPrepared q.roundChanges = some m → q.CarriesData m) (hash : Hash256) :
    q.justifyRoundChangeQuorum ≠ .preparedExistsButDataMissing hash := by
  unfold justifyRoundChangeQuorum
  dsimp only
  split
  · simp
  split
  · simp
  rename_i m hm
  obtain ⟨hne, d, hd, hhash, hvalid⟩ := hdata m hm
  simp [hne, hd, hhash, hvalid]

theorem startRound_of_leader (hstate : q.state = .awaitingProposal)
    (hleader : q.checkLeader q.config.operatorId q.currentRound = true) :
    (q.startRound = q ∧ ∃ m, lastHighestPrepared q.roundChanges = some m ∧ ¬ q.CarriesData m) ∨
    ∃ h d, q.startRound = (q.sendProposal h d).1 := by
  have hself : { q with state := .awaitingProposal } = q := by rw [← hstate]
  unfold startRound
  rw [if_neg (by simp [hstate])]
  simp only [hself, hleader, if_true]
  split
  · exact Or.inr ⟨_, _, rfl⟩
  · exact Or.inr ⟨_, _, rfl⟩
  · rename_i hash hmissing
    refine Or.inl ⟨rfl, ?_⟩
    by_contra hnone
    refine carriesData_of_justify (fun m hm => ?_) hash hmissing
    by_contra hdata
    exact hnone ⟨m, hm, hdata⟩

end Sending

/-! ## Reaching the quorum -/

section Reaching

variable {K : Type} {ctx : ValidationContext K} {q : Qbft F D} {e : Event} {r : Round}

def atQuorum (q : Qbft F D) (c : MessageContainer) (r : Round) : Qbft F D :=
  { q with roundChangeContainer := c, state := .awaitingProposal, currentRound := r }

theorem ReachesQuorum.holdsQuorum (h : q.ReachesQuorum e r) (hq : Reachable ctx q)
    (he : q.Admissible ctx e) (hr : Round.default < r) :
    ∃ w c, e = .receive w ∧ w.qbftMessage.round = r.toU64 ∧
      c.getMessagesForRound r = q.roundChangeContainer.getMessagesForRound r ++ [w] ∧
      (q.atQuorum c r).HoldsQuorum ∧ q.apply e = (q.atQuorum c r).startRound := by
  obtain ⟨w, s, c, rfl, hw, hadd, hquorum, heq⟩ := h.exists_startRound hq he
  have hc' := (hq.step he).containersOk
  obtain ⟨data, out, -, hstart⟩ := Qbft.exists_startRound (q := { q with
    roundChangeContainer := c, state := .roundChangeConsensus, currentRound := r }) (by simp)
  rw [heq, hstart] at hc'
  have hp := hq.preparedOk
  refine ⟨w, c, rfl, hw.fromSigner.round_eq,
    MessageContainer.getMessagesForRound_of_addMessage hadd,
    ⟨rfl, hr, hquorum, ?_, ?_⟩, heq⟩
  · exact hc'.congr rfl rfl (fun t => by cases t <;> rfl) rfl
  · refine ⟨?_, hp.both, hp.quorum, hp.data, fun r' hr' => ?_⟩
    · rintro v (hv | hv) <;> cases hv
    · exact (hp.round_le r' hr').trans hw.fromSigner.currentRound_le

end Reaching

/-! ## Accepting it -/

/-- The round changes leave one value to propose, and if the leader prepared a
value itself, it is that one and its round is the highest. -/
structure Aligned (q : Qbft F D) (rcs : List WrappedQbftMessage) : Prop where
  root_eq : ∀ m ∈ rcs, ∀ m' ∈ rcs, 0 < m.qbftMessage.dataRound.toNat →
    0 < m'.qbftMessage.dataRound.toNat → m.qbftMessage.root = m'.qbftMessage.root
  own : ∀ m ∈ rcs, 0 < m.qbftMessage.dataRound.toNat → ∀ r v, q.lastPreparedRound = some r →
    q.lastPreparedValue = some v → v = m.qbftMessage.root ∧ m.qbftMessage.dataRound ≤ r.toU64 ∧
      ∃ m' ∈ rcs, m'.qbftMessage.dataRound = r.toU64

section Accepting

variable {q : Qbft F D} {ps : List SignedSSVMessage} {v : Option Hash256}
  {l : ByteLists roundChangeJustificationLength 13} {l' : ByteLists prepareJustificationLength 13}
  {msg : QbftMessage}

theorem highestPreparedMessage_map (ms : List WrappedQbftMessage) :
    highestPreparedMessage (ms.map WrappedQbftMessage.qbftMessage) =
      (highestPrepared ms).map WrappedQbftMessage.qbftMessage :=
  Pick.pick_map WrappedQbftMessage.qbftMessage ms

omit [QbftData D] in
theorem Stored.roundChangeFor {r : Round} {m : WrappedQbftMessage}
    (h : q.Stored .roundChange r m) (hround : msg.round = r.toU64)
    (hroot : 0 < m.qbftMessage.dataRound.toNat → msg.root = m.qbftMessage.root) :
    q.RoundChangeFor msg m.signedMessage.withoutFullData m.qbftMessage := by
  refine ⟨⟨m.signer, h.operatorIds_eq, h.mem_committee⟩, ?_, h.sound.decoded, h.type_eq,
    h.round_eq.trans hround.symm, h.height_eq, h.checked, hroot⟩
  have hsigs := h.sound.wellFormed.length_signatures
  rwa [h.operatorIds_eq, List.length_singleton] at hsigs

omit [QbftData D] in
theorem HoldsQuorum.mapAll_validate (h : q.HoldsQuorum) (hround : msg.round = q.currentRound.toU64)
    (hroot : ∀ m ∈ q.roundChanges, 0 < m.qbftMessage.dataRound.toNat →
      msg.root = m.qbftMessage.root) :
    Checks.mapAll (q.validateRoundChangeJustification msg)
      ((q.roundChanges.map WrappedQbftMessage.signedMessage).map
        SignedSSVMessage.withoutFullData) =
      .ok (q.roundChanges.map WrappedQbftMessage.qbftMessage) := by
  rw [List.map_map, Checks.mapAll_map]
  apply Checks.mapAll_of_forall
  intro m hm
  exact validateRoundChangeJustification_iff.mpr ((h.stored hm).roundChangeFor hround (hroot m hm))

omit [QbftData D] in
theorem HoldsQuorum.justified_iff (h : q.HoldsQuorum) (hround : msg.round = q.currentRound.toU64)
    (hl : Encodes q.getRoundChangeJustifications msg.roundChangeJustification)
    (hl' : Encodes ps msg.prepareJustification) :
    q.validateProposalJustifications msg = .ok () ↔
      (∀ m ∈ q.roundChanges, 0 < m.qbftMessage.dataRound.toNat → msg.root = m.qbftMessage.root) ∧
      ∀ best, highestPrepared q.roundChanges = some best →
        ∃ hpos : 0 < best.qbftMessage.dataRound.toNat,
          q.PrepareQuorum (Round.ofU64 best.qbftMessage.dataRound hpos) best.qbftMessage.root
            (ps.map SignedSSVMessage.withoutFullData) := by
  have hrcs := decodeAll_of_encodes hl
  have hps := decodeAll_of_encodes hl'
  rw [h.getRoundChangeJustifications_eq] at hrcs
  rw [validateProposalJustifications_iff]
  constructor
  · rintro ⟨rcs, ms, hdecode, -, hall, hbest⟩
    cases hrcs.symm.trans hdecode
    have hroot : ∀ m ∈ q.roundChanges, 0 < m.qbftMessage.dataRound.toNat →
        msg.root = m.qbftMessage.root := by
      intro m hm
      obtain ⟨x, hx⟩ := Checks.exists_of_mapAll hall m.signedMessage.withoutFullData
        (List.mem_map_of_mem (List.mem_map_of_mem hm))
      obtain ⟨-, -, hdecode, -, -, -, -, hroot⟩ := validateRoundChangeJustification_iff.mp hx
      cases hdecode.symm.trans (h.stored hm).sound.decoded
      exact hroot
    refine ⟨hroot, fun best hb => ?_⟩
    cases (h.mapAll_validate hround hroot).symm.trans hall
    obtain ⟨hpos, -, ps', hps', hquorum⟩ := hbest best.qbftMessage (by
      rw [highestPreparedMessage_map, hb]
      rfl)
    cases hps.symm.trans hps'
    exact ⟨hpos, hquorum⟩
  · rintro ⟨hroot, hbest⟩
    refine ⟨_, _, hrcs, ?_, h.mapAll_validate hround hroot, fun b hb => ?_⟩
    · rw [hasQuorum_map_withoutFullData]
      exact h.hasQuorum
    · rw [highestPreparedMessage_map] at hb
      obtain ⟨best, hpick, rfl⟩ := Option.map_eq_some_iff.mp hb
      obtain ⟨hpos, hquorum⟩ := hbest best hpick
      exact ⟨hpos, hroot best (pos_of_highestPrepared hpick).1 hpos, _, hps, hquorum⟩

theorem le_of_highestPrepared {ms : List WrappedQbftMessage} {best m : WrappedQbftMessage}
    (h : highestPrepared ms = some best) (hm : m ∈ ms)
    (hpos : 0 < m.qbftMessage.dataRound.toNat) :
    m.qbftMessage.dataRound.toNat ≤ best.qbftMessage.dataRound.toNat := by
  refine @Pick.le_of_pick WrappedQbftMessage ℕ _ _ _ (fun m => m.qbftMessage.dataRound.toNat)
    (fun x y hxy => ?_) (fun x y hxy => ?_) ms best m h hm ?_
  · exact (UInt64.lt_iff_toNat_lt.mp (of_decide_eq_true hxy)).le
  · exact UInt64.le_iff_toNat_le.mp (UInt64.not_lt.mp (of_decide_eq_false hxy))
  · exact decide_eq_true (UInt64.lt_iff_toNat_lt.mpr hpos)

theorem exists_highestPrepared {ms : List WrappedQbftMessage} {m : WrappedQbftMessage}
    (hm : m ∈ ms) (hpos : 0 < m.qbftMessage.dataRound.toNat) :
    ∃ best, highestPrepared ms = some best := by
  cases h : highestPrepared ms with
  | some best => exact ⟨best, rfl⟩
  | none =>
    have hprepared : 0 < m.qbftMessage.dataRound := UInt64.lt_iff_toNat_lt.mpr hpos
    exact absurd hprepared (of_decide_eq_false (Pick.pick_eq_none_iff.mp h m hm))

omit [LeaderFunction F] [QbftData D] in
theorem PrepareQuorum.unique {r r' : Round} {x x' : Hash256} (h : q.PrepareQuorum r x ps)
    (h' : q.PrepareQuorum r' x' ps) : r = r' ∧ x = x' := by
  obtain ⟨m, hm⟩ := List.exists_mem_of_ne_nil ps h.ne_nil
  obtain ⟨-, -, p, hp, -, -, hround, hroot⟩ := h.prepares m hm
  obtain ⟨-, -, p', hp', -, -, hround', hroot'⟩ := h'.prepares m hm
  cases hp.symm.trans hp'
  exact ⟨Round.toU64_injective (hround.symm.trans hround'), hroot.symm.trans hroot'⟩

omit [LeaderFunction F] [QbftData D] in
theorem PrepareQuorum.withoutFullData {r : Round} {x : Hash256} (h : q.PrepareQuorum r x ps) :
    q.PrepareQuorum r x (ps.map SignedSSVMessage.withoutFullData) := by
  constructor
  · rw [hasQuorum_map_withoutFullData]
    exact h.quorum
  · intro m hm
    obtain ⟨m', hm', rfl⟩ := List.mem_map.mp hm
    obtain ⟨hsigner, hsigs, hdecoded⟩ := h.prepares m' hm'
    exact ⟨hsigner, hsigs, hdecoded⟩

omit [QbftData D] in
/-- The receivers accept a proposal exactly if nothing that the leader holds
contradicts its choice. -/
theorem HoldsQuorum.accepts_iff (h : q.HoldsQuorum) (hchoice : Choice q ps v) {x : Hash256}
    (hround : msg.round = q.currentRound.toU64) (hroot : msg.root = v.getD x)
    (hl : Encodes q.getRoundChangeJustifications msg.roundChangeJustification)
    (hl' : Encodes ps msg.prepareJustification) :
    q.validateProposalJustifications msg = .ok () ↔ q.Aligned q.roundChanges := by
  rw [h.justified_iff hround hl hl', hroot]
  cases hchoice with
  | @own r v hr hv =>
    have hown := prepareQuorum_prepareJustifications h.containers h.prepared hr hv
    constructor
    · rintro ⟨hroots, hbest⟩
      refine ⟨fun m hm m' hm' hpos hpos' => ?_, fun m hm hpos r' v' hr' hv' => ?_⟩
      · exact (hroots m hm hpos).symm.trans (hroots m' hm' hpos')
      · cases hr.symm.trans hr'
        cases hv.symm.trans hv'
        obtain ⟨best, hpick⟩ := exists_highestPrepared hm hpos
        obtain ⟨hpos', hquorum⟩ := hbest best hpick
        have hr : best.qbftMessage.dataRound = r.toU64 := by
          rw [(hown.unique hquorum).1, Round.toU64_ofU64]
        refine ⟨hroots m hm hpos, ?_, best, (pos_of_highestPrepared hpick).1, hr⟩
        rw [← hr, UInt64.le_iff_toNat_le]
        exact le_of_highestPrepared hpick hm hpos
    · intro haligned
      refine ⟨fun m hm hpos => (haligned.own m hm hpos r v hr hv).1, fun best hpick => ?_⟩
      obtain ⟨hmem, hpos⟩ := pos_of_highestPrepared hpick
      obtain ⟨hvroot, hle, m', hm', hm'r⟩ := haligned.own best hmem hpos r v hr hv
      have hle' := le_of_highestPrepared hpick hm' (hm'r ▸ toU64_pos r)
      rw [hm'r] at hle'
      have hbest : best.qbftMessage.dataRound = r.toU64 :=
        UInt64.toNat_inj.mp (le_antisymm (UInt64.le_iff_toNat_le.mp hle) hle')
      refine ⟨hpos, ?_⟩
      simp only [hbest, Round.ofU64_toU64, ← hvroot]
      exact hown
  | unprepared hnone hbest =>
    have hunprepared : ∀ m ∈ q.roundChanges, ¬ 0 < m.qbftMessage.dataRound.toNat := by
      intro m hm hpos
      obtain ⟨best, hpick⟩ := exists_highestPrepared hm hpos
      cases hbest.symm.trans hpick
    constructor
    · rintro -
      exact ⟨fun m hm _ _ hpos _ => absurd hpos (hunprepared m hm),
        fun m hm hpos => absurd hpos (hunprepared m hm)⟩
    · rintro -
      refine ⟨fun m hm hpos => absurd hpos (hunprepared m hm), fun best hpick => ?_⟩
      cases hbest.symm.trans hpick
  | @highest best ps hnone hbest hps =>
    obtain ⟨hmem, hpos⟩ := pos_of_highestPrepared hbest
    constructor
    · rintro ⟨hroots, -⟩
      refine ⟨fun m hm m' hm' hpos hpos' => ?_, fun m _ _ r v hr => ?_⟩
      · exact (hroots m hm hpos).symm.trans (hroots m' hm' hpos')
      · cases hnone.symm.trans hr
    · intro haligned
      refine ⟨fun m hm hpos' => haligned.root_eq best hmem m hm hpos hpos', fun best' hpick => ?_⟩
      cases hbest.symm.trans hpick
      obtain ⟨ps', hps', hquorum⟩ := (h.stored hmem).prepareQuorum hpos
      cases hps.symm.trans hps'
      exact ⟨hpos, hquorum.withoutFullData⟩

end Accepting

/-! ## Proposals of reachable leaders -/

section Emitted

variable {K : Type} {ctx : ValidationContext K} {q : Qbft F D} {e : Event} {r : Round}
  {u : UnsignedWrappedQbftMessage}

theorem startRound_of_not_leader (hstate : q.state = .awaitingProposal)
    (hleader : ¬ q.checkLeader q.config.operatorId q.currentRound = true) : q.startRound = q := by
  have hself : { q with state := .awaitingProposal } = q := by rw [← hstate]
  unfold startRound
  rw [if_neg (by simp [hstate])]
  simp only [hself]
  rw [if_neg hleader]

theorem ReachesQuorum.exists_choice_of_sent (h : q.ReachesQuorum e r) (hq : Reachable ctx q)
    (he : q.Admissible ctx e) (hr : Round.default < r) (hsent : (q.apply e).sent = q.sent ++ [u]) :
    ∃ w c ps v x, e = .receive w ∧
      c.getMessagesForRound r = q.roundChangeContainer.getMessagesForRound r ++ [w] ∧
      (q.atQuorum c r).HoldsQuorum ∧ Choice (q.atQuorum c r) ps v ∧
      q.checkLeader q.config.operatorId r = true ∧
      u.qbftMessage.round = r.toU64 ∧ u.qbftMessage.root = v.getD x ∧
      Encodes (q.atQuorum c r).getRoundChangeJustifications
        u.qbftMessage.roundChangeJustification ∧
      Encodes ps u.qbftMessage.prepareJustification := by
  obtain ⟨w, c, rfl, -, hmsgs, hhold, heq⟩ := h.holdsQuorum hq he hr
  have hchanged : q.sent ≠ q.sent ++ [u] := by simp
  by_cases hleader : q.checkLeader q.config.operatorId r = true
  swap
  · rw [heq, startRound_of_not_leader rfl hleader] at hsent
    exact absurd hsent hchanged
  rcases startRound_of_leader (q := q.atQuorum c r) rfl hleader with ⟨hwait, -⟩ | ⟨x, d, hstart⟩
  · rw [heq, hwait] at hsent
    exact absurd hsent hchanged
  obtain ⟨ps, v, hchoice, hps⟩ := hhold.exists_choice
  rw [heq, hstart] at hsent
  rcases sendProposal_of_choice x d hps with ⟨-, -, l, l', hl, hl', hout⟩ | ⟨-, hout⟩
  · rw [hout] at hsent
    obtain rfl : _ = u := List.singleton_inj.mp (List.append_cancel_left hsent)
    exact ⟨w, c, ps, v, x, rfl, hmsgs, hhold, hchoice, hleader, rfl, rfl, hl, hl'⟩
  · rw [hout] at hsent
    exact absurd hsent hchanged

end Emitted

end Qbft

end Anchor
