import Mathlib
import Anchor.Library.Locking
import Anchor.Network.Genuine
import Anchor.Network.Simulation

/-!
# Agreement

What the honest members of a committee sent in a run is a history of accepted,
committed and reported values in the sense of `Locking.History`.  Instances that
complete with success rest on certificates of that history, so they agree.
-/

namespace Anchor

open Ssz

namespace Network

variable {K F D : Type} [LeaderFunction F] [QbftData D]

def report (m : QbftMessage) : Option (ℕ × Hash256) :=
  if m.dataRound = 0 then none else some (m.dataRound.toNat, m.root)

section History

variable {N : Network K} {σ : World F D}

/-- An honest member sent a message of the type for the round, counted from one. -/
def SentAt (N : Network K) (σ : World F D) (t : QbftMessageType) (a : OperatorId) (r : ℕ)
    (v : Hash256) : Prop :=
  a ∈ N.honest ∧ ∃ r' : Round, r'.get = r ∧ (σ a).Sent t r' v

/-- An honest member left for round `r` with the given report. -/
def Reported (N : Network K) (σ : World F D) (a : OperatorId) (r : ℕ)
    (rep : Option (ℕ × Hash256)) : Prop :=
  a ∈ N.honest ∧ ∃ u ∈ (σ a).sent, u.qbftMessage.qbftMessageType = .roundChange ∧
    u.qbftMessage.round.toNat = r ∧ report u.qbftMessage = rep

theorem mem_honest_of_notMem {a : OperatorId} (hmem : a ∈ N.committee)
    (ha : a ∉ N.committee \ N.honest) : a ∈ N.honest := by
  by_contra hnot
  exact ha (Finset.mem_sdiff.mpr ⟨hmem, hnot⟩)

/-- A value accepted after the first round rests on genuine round changes of a
quorum, none of which reports another value. -/
theorem justified (hnode : ∀ i ∈ N.honest, N.Node i (σ i)) (hproposals : N.GenuineProposals σ)
    {a : OperatorId} {r : ℕ} {v : Hash256} (h : N.SentAt σ .prepare a r v) (hr : 1 < r) :
    ∃ Q ⊆ N.committee, 2 * N.f + 1 ≤ Q.card ∧ ∀ b ∈ Q, b ∉ N.committee \ N.honest →
      ∃ rep, N.Reported σ b r rep ∧ ∀ d w, rep = some (d, w) → w = v := by
  obtain ⟨ha, r, rfl, hsent⟩ := h
  have hn := hnode a ha
  obtain ⟨m, hm, rfl⟩ := (hn.reachable.sentOk).proposal r v hsent
  have hstored := (hn.reachable.containersOk).stored .proposal r m hm
  obtain ⟨Q, hQ, hcard, hrcs⟩ := Qbft.exists_roundChange_of_justified (hstored.checked.2 hr)
  refine ⟨Q, hn.committee_eq ▸ hQ, hn.quorumSize_eq ▸ hcard, fun b hb hfaulty => ?_⟩
  have hb' := mem_honest_of_notMem (hn.committee_eq ▸ hQ hb) hfaulty
  obtain ⟨rc, msg, hrc, hsigner, hfor⟩ := hrcs b hb
  obtain ⟨u, hu, heq⟩ := (hproposals.stored a ha r m hm rc hrc).exists_sent hnode hsigner hb'
    hfor.decoded
  refine ⟨report msg, ⟨hb', u, hu, ?_, ?_, by rw [heq]⟩, ?_⟩
  · rw [heq, hfor.type_eq]
  · rw [heq, hfor.round_eq, hstored.round_eq, Round.toNat_toU64]
  · intro d w hreport
    unfold report at hreport
    split_ifs at hreport with hzero
    cases hreport
    refine (hfor.root_eq (Nat.pos_of_ne_zero fun h => hzero ?_)).symm
    exact UInt64.toNat_inj.mp (by simpa using h)

/-- A member that committed reports, when it leaves for a later round, a value it
accepted since. -/
theorem locked (hnode : ∀ i ∈ N.honest, N.Node i (σ i)) {a : OperatorId} {r r' : ℕ} {v : Hash256}
    {rep : Option (ℕ × Hash256)} (hc : N.SentAt σ .commit a r v) (hrep : N.Reported σ a r' rep)
    (hlt : r < r') :
    ∃ d w, rep = some (d, w) ∧ r ≤ d ∧ d < r' ∧ N.SentAt σ .prepare a d w := by
  obtain ⟨ha, r, rfl, hsent⟩ := hc
  obtain ⟨-, u, hu, htype, rfl, rfl⟩ := hrep
  have hok := (hnode a ha).reachable.sentOk
  have hle : r.toU64 ≤ u.qbftMessage.dataRound := by
    apply hok.locked u hu htype r v hsent
    rw [UInt64.lt_iff_toNat_lt, Round.toNat_toU64]
    exact hlt
  rw [UInt64.le_iff_toNat_le, Round.toNat_toU64] at hle
  have hne : u.qbftMessage.dataRound ≠ 0 := by
    intro hzero
    have hpos := r.pos
    rw [hzero, UInt64.toNat_zero] at hle
    omega
  obtain ⟨d, hd, hdlt, hprepare⟩ := hok.roundChange_prepared u hu htype hne
  refine ⟨d.get, u.qbftMessage.root, ?_, ?_, ?_, ha, d, rfl, hprepare⟩
  · rw [report, if_neg hne, hd, Round.toNat_toU64]
  · rwa [hd, Round.toNat_toU64] at hle
  · rwa [UInt64.lt_iff_toNat_lt, Round.toNat_toU64] at hdlt

/-- What the honest members sent, as a history of locked values. -/
def history
    (hnode : ∀ i ∈ N.honest, N.Node i (σ i)) (hproposals : N.GenuineProposals σ) :
    Locking.History OperatorId Hash256 where
  committee := N.committee
  faulty := N.committee \ N.honest
  f := N.f
  accepted := N.SentAt σ .prepare
  committed := N.SentAt σ .commit
  reported := N.Reported σ
  card_committee := N.card_committee
  card_faulty := by
    rw [Finset.inter_eq_right.mpr Finset.sdiff_subset]
    exact N.card_byzantine_le
  accepted_unique := by
    rintro a - r v w ⟨ha, r, rfl, hv⟩ ⟨-, r', hr', hw⟩
    rw [Round.get_injective hr'] at hw
    exact ((hnode a ha).reachable.sentOk).root_unique (by simp) hv hw
  accepted_of_committed := by
    rintro a - r v ⟨ha, r', hr', hs⟩
    exact ⟨ha, r', hr', (((hnode a ha).reachable.sentOk).committed r' v hs).1⟩
  pos_of_committed := by
    rintro a - r v ⟨-, r', rfl, -⟩
    exact r'.pos
  justified := fun _ _ _ _ h hr => justified hnode hproposals h hr
  locked := fun _ _ _ _ _ _ hc hrep hlt => locked hnode hc hrep hlt

theorem Certified.certificate (hnode : ∀ i ∈ N.honest, N.Node i (σ i))
    (hproposals : N.GenuineProposals σ) {v : Hash256}
    (h : N.Certified σ v) : ∃ r, (history hnode hproposals).Certificate r v := by
  obtain ⟨r, Q, hQ, hcard, hall⟩ := h
  refine ⟨r.get, Q, hQ, hcard, fun a ha hfaulty => ?_⟩
  have hhonest := mem_honest_of_notMem (hQ ha) hfaulty
  exact ⟨hhonest, r, rfl, hall a ha hhonest⟩

end History

/-- Any two honest instances that complete with success, at any two times of a
run, complete with the same root. -/
theorem agreement {N : Network K} {σ τ υ : World F D} {es es' : List (OperatorId × Qbft.Event)}
    (hstart : N.Started σ)
    (hrun : N.Run N.Bound σ es τ) (hrun' : N.Run N.Bound τ es' υ) {i j : OperatorId}
    (hi : i ∈ N.honest) (hj : j ∈ N.honest) {v w : Hash256}
    (hv : (τ i).completed = some (.success v)) (hw : (υ j).completed = some (.success w)) :
    v = w := by
  have hall := hrun.append hrun'
  have hnode := hall.node hstart.node
  have hproposals := hall.genuineProposals hstart
  have hmono := hrun'.sent_mono (hrun.node hstart.node)
  obtain ⟨r, hr⟩ := (((hrun.genuine hstart).success i hi v hv).mono hmono).certificate
    hnode hproposals
  obtain ⟨r', hr'⟩ := ((hall.genuine hstart).success j hj w hw).certificate
    hnode hproposals
  exact hr.unique hr'

end Network

namespace Sample

open Network.Action in
def decidingScript : List Network.Action :=
  [relay ⟨1⟩ ⟨1⟩ 0, relay ⟨2⟩ ⟨1⟩ 0, relay ⟨3⟩ ⟨1⟩ 0,
    relay ⟨1⟩ ⟨1⟩ 1, relay ⟨1⟩ ⟨2⟩ 0, relay ⟨1⟩ ⟨3⟩ 0,
    relay ⟨2⟩ ⟨1⟩ 1, relay ⟨2⟩ ⟨2⟩ 0, relay ⟨2⟩ ⟨3⟩ 0,
    relay ⟨3⟩ ⟨1⟩ 1, relay ⟨3⟩ ⟨2⟩ 0, relay ⟨3⟩ ⟨3⟩ 0,
    relay ⟨1⟩ ⟨1⟩ 2, relay ⟨1⟩ ⟨2⟩ 1, relay ⟨1⟩ ⟨3⟩ 1,
    relay ⟨2⟩ ⟨1⟩ 2, relay ⟨2⟩ ⟨2⟩ 1, relay ⟨2⟩ ⟨3⟩ 1]

theorem agreement_decidingScript : ∃ es τ v w, network3.Run network3.Bound world es τ ∧
    (τ ⟨1⟩).completed = some (.success v) ∧ (τ ⟨2⟩).completed = some (.success w) ∧ v = w := by
  obtain ⟨es, τ, hrun, hv, hw⟩ := Network.exists_run (N := network3) (P := network3.Bound)
    (fun τ => (τ ⟨1⟩).completed = some (.success (QbftData.hash (⟨1⟩ : Vote))) ∧
      (τ ⟨2⟩).completed = some (.success (QbftData.hash (⟨1⟩ : Vote))))
    (show ∃ r ∈ network3.simulate network3.Bound sign world decidingScript, _ by decide +kernel)
  exact ⟨es, τ, _, _, hrun, hv, hw, Network.agreement started_network3 hrun Network.Run.nil
    (by decide) (by decide) hv hw⟩

end Sample

end Anchor
