import Mathlib
import Anchor.Qbft.Transition

/-!
# When justifications are accepted

The checks on the justifications of round changes and proposals, as statements
about the messages they decode to.
-/

namespace Anchor

open Ssz

namespace Qbft

variable {F D : Type} {q : Qbft F D}

/-! ## Decoding -/

def decodeAll {n : ℕ} (l : ByteLists n 13) : Option (List SignedSSVMessage) :=
  l.toList.mapM fun bytes => SignedSSVMessage.fromSszBytes bytes.toList

variable {ms : List SignedSSVMessage}

theorem tryDecode_eq_ok_iff {n : ℕ} {l : ByteLists n 13} {err : QbftError} :
    tryDecodeSignedSsvMessages l err = .ok ms ↔ decodeAll l = some ms := by
  unfold tryDecodeSignedSsvMessages decodeAll
  split
  · rename_i h
    simp [h]
  · rename_i decoded h
    simp [h]

theorem decodeAll_of_encodes {n : ℕ} {messages : List SignedSSVMessage} {l : ByteLists n 13}
    (h : Encodes messages l) : decodeAll l = some (messages.map SignedSSVMessage.withoutFullData) :=
  tryDecode_eq_ok_iff.mp (tryDecode_of_encodes h .invalidFullData)

theorem exists_bytes_of_decodeAll {n : ℕ} {l : ByteLists n 13}
    (h : decodeAll l = some ms) {m : SignedSSVMessage} (hm : m ∈ ms) :
    ∃ bytes ∈ l.toList, SignedSSVMessage.fromSszBytes bytes.toList = some m := by
  unfold decodeAll at h
  generalize l.toList = xs at h ⊢
  induction xs generalizing ms with
  | nil =>
    cases h
    cases hm
  | cons x xs ih =>
    simp only [List.mapM_cons, Option.bind_eq_bind, Option.bind_eq_some_iff, Option.pure_def,
      Option.some.injEq] at h
    obtain ⟨y, hy, ys, hys, rfl⟩ := h
    rcases List.mem_cons.mp hm with rfl | hm
    · exact ⟨x, by simp, hy⟩
    · obtain ⟨bytes, hbytes, hdecode⟩ := ih hm hys
      exact ⟨bytes, List.mem_cons_of_mem _ hbytes, hdecode⟩

theorem length_of_decodeAll {n : ℕ} {l : ByteLists n 13}
    (h : decodeAll l = some ms) : ms.length = l.toList.length := by
  unfold decodeAll at h
  generalize l.toList = xs at h ⊢
  induction xs generalizing ms with
  | nil =>
    cases h
    rfl
  | cons x xs ih =>
    simp only [List.mapM_cons, Option.bind_eq_bind, Option.bind_eq_some_iff, Option.pure_def,
      Option.some.injEq] at h
    obtain ⟨y, -, ys, hys, rfl⟩ := h
    rw [List.length_cons, List.length_cons, ih hys]

/-! ## Prepares -/

structure PrepareFor (q : Qbft F D) (r : Round) (v : Hash256) (m : SignedSSVMessage) : Prop where
  signer : ∃ s, m.operatorIds.toList = [s] ∧ s ∈ q.config.committeeMembers.toList
  length_signatures : m.signatures.toList.length = 1
  decoded : ∃ p, QbftMessage.fromSszBytes m.ssvMessage.data.toList = some p ∧
    p.qbftMessageType = .prepare ∧ p.height = q.instanceHeight ∧ p.round = r.toU64 ∧ p.root = v

theorem isValidPrepareJustification_iff {r : Round} {v : Hash256} {m : SignedSSVMessage} :
    q.isValidPrepareJustificationForRoundAndRoot r v m = .ok () ↔ q.PrepareFor r v m := by
  unfold isValidPrepareJustificationForRoundAndRoot
  constructor
  · intro h
    split at h
    · rename_i s hs
      split_ifs at h with hsigs hmem
      split at h
      · cases h
      · rename_i p hp
        split_ifs at h with htype hheight hround hroot
        refine ⟨⟨s, hs, ?_⟩, not_not.mp hsigs, p, hp, not_not.mp htype, not_not.mp hheight,
          not_not.mp hround, not_not.mp hroot⟩
        simpa [checkCommittee] using hmem
    · cases h
  · rintro ⟨⟨s, hs, hmem⟩, hsigs, p, hp, htype, hheight, hround, hroot⟩
    simp [hs, hsigs, hp, htype, hheight, hround, hroot, checkCommittee, hmem]

structure PrepareQuorum (q : Qbft F D) (r : Round) (v : Hash256) (ms : List SignedSSVMessage) :
    Prop where
  quorum : q.hasQuorum ms = true
  prepares : ∀ m ∈ ms, q.PrepareFor r v m

theorem forEach_isValidPrepareJustification_iff {r : Round} {v : Hash256} :
    Checks.forEach (q.isValidPrepareJustificationForRoundAndRoot r v) ms = .ok () ↔
      ∀ m ∈ ms, q.PrepareFor r v m := by
  rw [Checks.forEach_eq_ok_iff]
  simp only [isValidPrepareJustification_iff]

/-! ## Round changes -/

/-- A round change is accepted if it is unprepared or carries the prepares of a
quorum for an earlier round. -/
theorem checkRoundChange_iff {m : QbftMessage} :
    q.checkRoundChange m = .ok () ↔ ∀ hprepared : 0 < m.dataRound.toNat,
      m.dataRound < m.round ∧ ∃ ms, decodeAll m.roundChangeJustification = some ms ∧
        q.PrepareQuorum (Round.ofU64 m.dataRound hprepared) m.root ms := by
  unfold checkRoundChange
  split
  · rename_i hprepared
    constructor
    · intro h _
      split at h
      · cases h
      · rename_i ms hms
        split_ifs at h with hquorum hround
        refine ⟨UInt64.not_le.mp hround, ms, tryDecode_eq_ok_iff.mp hms, by simpa using hquorum, ?_⟩
        exact forEach_isValidPrepareJustification_iff.mp h
    · intro h
      obtain ⟨hround, ms, hms, hquorum, hprepares⟩ := h hprepared
      rw [tryDecode_eq_ok_iff.mpr hms]
      simp only [hquorum, Bool.not_true, Bool.false_eq_true, if_false]
      rw [if_neg (UInt64.not_le.mpr hround)]
      exact forEach_isValidPrepareJustification_iff.mpr hprepares
  · rename_i hunprepared
    simp [hunprepared]

structure RoundChangeFor (q : Qbft F D) (msg : QbftMessage) (rc : SignedSSVMessage)
    (m : QbftMessage) : Prop where
  signer : ∃ s, rc.operatorIds.toList = [s] ∧ s ∈ q.config.committeeMembers.toList
  length_signatures : rc.signatures.toList.length = 1
  decoded : QbftMessage.fromSszBytes rc.ssvMessage.data.toList = some m
  type_eq : m.qbftMessageType = .roundChange
  round_eq : m.round = msg.round
  height_eq : m.height = q.instanceHeight
  checked : q.checkRoundChange m = .ok ()
  root_eq : 0 < m.dataRound.toNat → msg.root = m.root

theorem validateRoundChangeJustification_iff {msg m : QbftMessage} {rc : SignedSSVMessage} :
    q.validateRoundChangeJustification msg rc = .ok m ↔ q.RoundChangeFor msg rc m := by
  unfold validateRoundChangeJustification
  constructor
  · intro h
    split_ifs at h with hsingle hmem
    obtain ⟨hids, hsigs⟩ := not_or.mp hsingle
    obtain ⟨s, hs⟩ := List.length_eq_one_iff.mp (not_not.mp hids)
    have hsigner : ∃ s, rc.operatorIds.toList = [s] ∧ s ∈ q.config.committeeMembers.toList :=
      ⟨s, hs, by simpa [hs, checkCommittee] using hmem⟩
    split at h
    · cases h
    rename_i m' hm'
    split_ifs at h with htype hround hheight hprepared hdata hroot
    · split at h
      · cases h
      rename_i ms hms
      split_ifs at h with hquorum
      split at h
      · cases h
      rename_i hprepares
      cases h
      refine ⟨hsigner, not_not.mp hsigs, hm', not_not.mp htype, not_not.mp hround,
        not_not.mp hheight, checkRoundChange_iff.mpr fun _ => ⟨UInt64.not_le.mp hdata, ms,
          tryDecode_eq_ok_iff.mp hms, by simpa using hquorum,
          forEach_isValidPrepareJustification_iff.mp hprepares⟩, fun _ => not_not.mp hroot⟩
    · cases h
      exact ⟨hsigner, not_not.mp hsigs, hm', not_not.mp htype, not_not.mp hround,
        not_not.mp hheight, checkRoundChange_iff.mpr fun h => absurd h hprepared,
        fun h => absurd h hprepared⟩
  · rintro ⟨⟨s, hs, hmem⟩, hsigs, hdecode, htype, hround, hheight, hchecked, hroot⟩
    simp only [hs, List.length_singleton, hsigs, ne_eq, not_true_eq_false, or_self, if_false,
      List.any_cons, List.any_nil, checkCommittee, (IndexSet.contains_iff _ _).mpr hmem,
      Bool.not_true, Bool.or_false, Bool.false_eq_true, hdecode, htype, hround, hheight]
    split
    · rename_i hprepared
      obtain ⟨hdata, ms, hms, hquorum, hprepares⟩ := checkRoundChange_iff.mp hchecked hprepared
      rw [if_neg (UInt64.not_le.mpr (hround ▸ hdata)), if_neg (not_not.mpr (hroot hprepared)),
        tryDecode_eq_ok_iff.mpr hms]
      simp only [hquorum, Bool.not_true, Bool.false_eq_true, if_false,
        forEach_isValidPrepareJustification_iff.mpr hprepares]
    · rfl

def highestPreparedMessage : List QbftMessage → Option QbftMessage :=
  Pick.pick (fun m => 0 < m.dataRound) fun m best => m.dataRound > best.dataRound

theorem step_highestPrepared (best : Option QbftMessage) (m : QbftMessage) :
    Pick.step (fun m : QbftMessage => decide (0 < m.dataRound))
        (fun m best => decide (m.dataRound > best.dataRound)) best m =
      if m.dataRound > (best.map QbftMessage.dataRound).getD 0 then some m else best := by
  unfold Pick.step
  cases best with
  | none => simp
  | some b =>
    simp only [decide_eq_true_eq, Option.map_some, Option.getD_some, gt_iff_lt]
    split_ifs with hpos hlt hlt
    · rfl
    · rfl
    · -- Nothing unprepared lies above the best message.
      exact absurd (UInt64.lt_of_le_of_lt UInt64.zero_le hlt) hpos
    · rfl

theorem validateRoundChangeJustifications_eq (msg : QbftMessage) (best : Option QbftMessage)
    (rcs : List SignedSSVMessage) :
    q.validateRoundChangeJustifications msg best rcs =
      (Checks.mapAll (q.validateRoundChangeJustification msg) rcs).map fun ms =>
        ms.foldl (Pick.step (fun m : QbftMessage => decide (0 < m.dataRound))
          fun m best => decide (m.dataRound > best.dataRound)) best := by
  induction rcs generalizing best with
  | nil => rfl
  | cons rc rcs ih =>
    cases hrc : q.validateRoundChangeJustification msg rc with
    | error e => simp [validateRoundChangeJustifications, Checks.mapAll, hrc, Except.map]
    | ok m =>
      simp only [validateRoundChangeJustifications, Checks.mapAll, hrc, ih]
      cases hall : Checks.mapAll (q.validateRoundChangeJustification msg) rcs with
      | error e => split <;> rfl
      | ok ms =>
        simp only [Except.map, List.foldl_cons, step_highestPrepared]
        split <;> rfl

/-! ## Proposals -/

/-- A proposal is accepted if it carries acceptable round changes of a quorum and,
when any of them is prepared, the prepares of a quorum for the highest. -/
theorem validateProposalJustifications_iff {msg : QbftMessage} :
    q.validateProposalJustifications msg = .ok () ↔
      ∃ rcs ms, decodeAll msg.roundChangeJustification = some rcs ∧ q.hasQuorum rcs = true ∧
        Checks.mapAll (q.validateRoundChangeJustification msg) rcs = .ok ms ∧
        ∀ best, highestPreparedMessage ms = some best →
          ∃ hprepared : 0 < best.dataRound.toNat, msg.root = best.root ∧
            ∃ ps, decodeAll msg.prepareJustification = some ps ∧
              q.PrepareQuorum (Round.ofU64 best.dataRound hprepared) best.root ps := by
  unfold validateProposalJustifications
  constructor
  · intro h
    split at h
    · cases h
    rename_i rcs hrcs
    split_ifs at h with hquorum
    rw [validateRoundChangeJustifications_eq] at h
    cases hall : Checks.mapAll (q.validateRoundChangeJustification msg) rcs with
    | error e => simp [hall, Except.map] at h
    | ok ms =>
      refine ⟨rcs, ms, tryDecode_eq_ok_iff.mp hrcs, by simpa using hquorum, hall, ?_⟩
      intro best hbest
      have hfold : ms.foldl (Pick.step (fun m : QbftMessage => decide (0 < m.dataRound))
        fun m best => decide (m.dataRound > best.dataRound)) none = some best := hbest
      simp only [hall, Except.map, hfold] at h
      split at h
      · cases h
      rename_i ps hps
      split_ifs at h with hpquorum hroot hprepared
      · exact ⟨hprepared, not_not.mp hroot, ps, tryDecode_eq_ok_iff.mp hps,
          by simpa using hpquorum, forEach_isValidPrepareJustification_iff.mp h⟩
      · obtain ⟨-, hpos⟩ := Pick.mem_of_pick hbest
        exact absurd (UInt64.lt_iff_toNat_lt.mp (of_decide_eq_true hpos)) hprepared
  · rintro ⟨rcs, ms, hrcs, hquorum, hall, hbest⟩
    simp only [tryDecode_eq_ok_iff.mpr hrcs, hquorum, Bool.not_true, Bool.false_eq_true, if_false,
      validateRoundChangeJustifications_eq, hall, Except.map]
    cases hhighest : highestPreparedMessage ms with
    | none =>
      rw [highestPreparedMessage, Pick.pick] at hhighest
      simp only [hhighest]
    | some best =>
      obtain ⟨hprepared, hroot, ps, hps, hpquorum, hprepares⟩ := hbest best hhighest
      rw [highestPreparedMessage, Pick.pick] at hhighest
      simp only [hhighest, tryDecode_eq_ok_iff.mpr hps, hpquorum, Bool.not_true,
        Bool.false_eq_true, if_false, hroot, ne_eq, not_true_eq_false, hprepared, dif_pos]
      exact forEach_isValidPrepareJustification_iff.mpr hprepares

end Qbft

end Anchor
