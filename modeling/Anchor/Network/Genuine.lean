import Mathlib
import Anchor.Network.Run

/-!
# Genuine messages

Unforgeability is assumed of what the network delivers.  Along a run it carries
over to what the honest instances have stored, to the justifications inside it,
and to the messages they build from it.
-/

namespace Anchor

open Ssz

theorem ValidationContext.Validated.verify_justification {K : Type} {ctx : ValidationContext K}
    {w : WrappedQbftMessage} (h : ctx.Validated w) {m : SignedSSVMessage}
    (hm : m ∈ w.qbftMessage.justifications) : ctx.verifyMessageSignatures m = .ok () := by
  obtain ⟨-, -, hconsensus⟩ := validateSsvMessage_eq_ok h.validate_eq
  obtain ⟨-, -, -, hjust, -⟩ := validateConsensusMessage_eq_ok hconsensus
  obtain ⟨-, -, hprepares, hroundChanges⟩ := validateJustificationsWith_eq_ok hjust
  have hlist : ∀ {n : ℕ} {inner : Bytes → Except ValidationFailure Unit} {l : ByteLists n 13},
      ctx.validateJustificationList inner l = .ok () → m ∈ decodedMessages l →
        ctx.verifyMessageSignatures m = .ok () := by
    intro n inner l hl hm
    obtain ⟨bytes, hbytes, hdecode⟩ := List.mem_filterMap.mp hm
    obtain ⟨signed, hsigned, hverify, -⟩ := validateJustificationList_eq_ok hl bytes hbytes
    rw [hdecode] at hsigned
    cases hsigned
    exact hverify
  rcases List.mem_append.mp hm with hm | hm
  · exact hlist hroundChanges hm
  · exact hlist hprepares hm

theorem ValidationContext.Validated.verify_eq {K : Type} {ctx : ValidationContext K}
    {w : WrappedQbftMessage} (h : ctx.Validated w) :
    ctx.verifyMessageSignatures w.signedMessage = .ok () ∧
      w.qbftMessage.identifier = w.signedMessage.ssvMessage.msgId.toVariableList := by
  obtain ⟨-, -, hconsensus⟩ := validateSsvMessage_eq_ok h.validate_eq
  obtain ⟨-, -, hround, -, hverify⟩ := validateConsensusMessage_eq_ok hconsensus
  exact ⟨hverify, (validateRoundAndIdentifier_eq_ok hround).2⟩

namespace Qbft

variable {F D : Type}

/-- The round change quorum behind a justified proposal: each member of it signed
one of the round changes the proposal carries. -/
theorem exists_roundChange_of_justified {q : Qbft F D} {msg : QbftMessage}
    (h : q.validateProposalJustifications msg = .ok ()) :
    ∃ Q ⊆ q.config.committee, q.config.quorumSize ≤ Q.card ∧ ∀ b ∈ Q,
      ∃ rc m, rc ∈ decodedMessages msg.roundChangeJustification ∧ b ∈ rc.operatorIds.toList ∧
        q.RoundChangeFor msg rc m := by
  obtain ⟨rcs, ms, hrcs, hquorum, hall, -⟩ := validateProposalJustifications_iff.mp h
  refine ⟨q.uniqueOperators rcs, uniqueOperators_subset q rcs, hasQuorum_iff.mp hquorum, ?_⟩
  intro b hb
  obtain ⟨⟨rc, hrc, hsigner⟩, -⟩ := mem_uniqueOperators.mp hb
  obtain ⟨m, hm⟩ := Checks.exists_of_mapAll hall rc hrc
  exact ⟨rc, m, mem_decodedMessages hrcs hrc, hsigner, validateRoundChangeJustification_iff.mp hm⟩

variable [LeaderFunction F] [QbftData D]

/-- A step that completes with success has a quorum of stored commits or has
received a decided message. -/
theorem Transition.success_cases {q q' : Qbft F D} {e : Event} (h : Transition q e q')
    {v : Hash256} (hv : q'.completed = some (.success v)) :
    q.completed = some (.success v) ∨
      q'.commitContainer.hasQuorum q'.currentRound = some v ∨
      ∃ w d, e = .receive w ∧ q.IsDecided w d ∧ w.qbftMessage.root = v := by
  cases h with
  | committed hw hadd hflag hroot hquorum hstate haggregate =>
    cases hv
    exact Or.inr (Or.inl hquorum)
  | @decided w d hw =>
    cases hv
    exact Or.inr (Or.inr ⟨w, d, rfl, hw, rfl⟩)
  | timedOut hlast => cases hv
  | _ => exact Or.inl hv

end Qbft

namespace Network

variable {K F D : Type} [LeaderFunction F] [QbftData D]

section Basic

variable {N : Network K} {P : WrappedQbftMessage → Prop} {σ τ : World F D} {i : OperatorId}
  {q : Qbft F D} {e : Qbft.Event} {m : SignedSSVMessage}

theorem Node.f_eq (h : N.Node i q) : q.config.f = N.f := by
  have hcard := q.config.card_committee
  rw [h.committee_eq, N.card_committee] at hcard
  omega

theorem Node.quorumSize_eq (h : N.Node i q) : q.config.quorumSize = 2 * N.f + 1 := by
  rw [Config.quorumSize_eq, h.f_eq]

omit [LeaderFunction F] [QbftData D] in
theorem SentBySigners.mono (hmono : ∀ j, (σ j).sent ⊆ (τ j).sent) (h : N.SentBySigners σ m) :
    N.SentBySigners τ m := by
  intro s hs hhonest
  obtain ⟨u, hu, heq⟩ := h s hs hhonest
  exact ⟨u, hmono s hu, heq⟩

theorem SentBySigners.exists_sent (hnode : ∀ i ∈ N.honest, N.Node i (σ i)) (h : N.SentBySigners σ m)
    {s : OperatorId}
    (hs : s ∈ m.operatorIds.toList) (hhonest : s ∈ N.honest) {msg : QbftMessage}
    (hdecode : QbftMessage.fromSszBytes m.ssvMessage.data.toList = some msg) :
    ∃ u ∈ (σ s).sent, u.qbftMessage = msg := by
  obtain ⟨u, hu, heq⟩ := h s hs hhonest
  have hsound := ((hnode s hhonest).reachable.grounded).sent_sound u hu
  refine ⟨u, hu, ?_⟩
  rw [← heq, hsound.ssvMessage_eq, SSVMessage.fromSszBytes_data_consensus] at hdecode
  exact Option.some.inj hdecode

omit [LeaderFunction F] [QbftData D] in
theorem Deliverable.justification_genuine {w : WrappedQbftMessage} (hw : N.Deliverable σ w)
    (hbound : N.Bound w) (hm : m ∈ decodedMessages w.qbftMessage.roundChangeJustification) :
    N.SentBySigners σ m := by
  have hjust : m ∈ w.qbftMessage.justifications := List.mem_append_left _ hm
  have hnested : m ∈ w.signedMessage.nested (1 + 1) :=
    SignedSSVMessage.mem_nested_of_mem_justifications hw.validated.sound.decoded hjust
  exact hw.unforged m hnested (hbound m hnested) (hw.validated.verify_justification hjust)

theorem Allowed.sentBySigners {w : WrappedQbftMessage} (hnode : N.Node i (σ i))
    (h : N.Allowed P σ i (.receive w)) (hheight : w.qbftMessage.height = (σ i).instanceHeight) :
    N.SentBySigners σ w.signedMessage := by
  rcases h.2 with ⟨hw, -⟩ | ⟨u, hu, signature, hsign⟩
  · obtain ⟨hverify, hid⟩ := hw.validated.verify_eq
    refine hw.unforged _ (SignedSSVMessage.mem_nested 2 _) ?_ hverify
    rw [hw.msgId_eq] at hid
    simp [belongs, hw.validated.sound.decoded, hw.msgId_eq, hid, hheight, hnode.height_eq]
  · obtain ⟨-, -, hids, hssv, -, -⟩ := UnsignedWrappedQbftMessage.sign_eq_ok hsign
    intro s hs _
    rw [hids, hnode.operatorId_eq, List.mem_singleton] at hs
    subst hs
    exact ⟨u, hu, hssv.symm⟩

theorem Node.sent_mono (h : N.Node i (σ i))
    (he : N.Allowed P σ i e) (j : OperatorId) : (σ j).sent ⊆ (step σ i e j).sent := by
  by_cases hij : j = i
  · subst hij
    rw [step_self]
    exact (h.transition he.admissible).sent_mono (h.reachable.containersOk)
  · rw [step_of_ne hij]
    exact List.Subset.refl _

end Basic

/-! ## What is stored, and why an instance completed -/

/-- A quorum of the committee whose honest members all sent a commit for `v`. -/
def Certified (N : Network K) (σ : World F D) (v : Hash256) : Prop :=
  ∃ (r : Round) (Q : Finset OperatorId), Q ⊆ N.committee ∧ 2 * N.f + 1 ≤ Q.card ∧
    ∀ a ∈ Q, a ∈ N.honest → (σ a).Sent .commit r v

structure Genuine (N : Network K) (σ : World F D) : Prop where
  stored : ∀ i ∈ N.honest, ∀ t r m, m ∈ ((σ i).container t).getMessagesForRound r →
    N.SentBySigners σ m.signedMessage
  success : ∀ i ∈ N.honest, ∀ v, (σ i).completed = some (.success v) → N.Certified σ v

section Genuine

variable {N : Network K} {P : WrappedQbftMessage → Prop} {σ τ : World F D} {i : OperatorId}
  {e : Qbft.Event}

omit [LeaderFunction F] [QbftData D] in
theorem Certified.mono (hmono : ∀ j, (σ j).sent ⊆ (τ j).sent) {v : Hash256}
    (h : N.Certified σ v) : N.Certified τ v := by
  obtain ⟨r, Q, hQ, hcard, hall⟩ := h
  refine ⟨r, Q, hQ, hcard, fun a ha hhonest => ?_⟩
  obtain ⟨u, hu, hrest⟩ := hall a ha hhonest
  exact ⟨u, hmono a hu, hrest⟩

section

variable (hnode : ∀ i ∈ N.honest, N.Node i (σ i))
include hnode

theorem Genuine.exists_sent (h : N.Genuine σ)
    (hi : i ∈ N.honest)
    {t : QbftMessageType} {r : Round} {m : WrappedQbftMessage}
    (hm : m ∈ ((σ i).container t).getMessagesForRound r) (hs : m.signer ∈ N.honest) :
    ∃ u ∈ (σ m.signer).sent, u.qbftMessage = m.qbftMessage := by
  have hstored := ((hnode i hi).reachable.containersOk).stored t r m hm
  refine (h.stored i hi t r m hm).exists_sent hnode ?_ hs hstored.sound.decoded
  rw [hstored.operatorIds_eq]
  exact List.mem_singleton.mpr rfl

theorem certified_of_stored
    (hstored : ∀ i ∈ N.honest, ∀ t r m, m ∈ ((σ i).container t).getMessagesForRound r →
      N.SentBySigners σ m.signedMessage)
    (hi : i ∈ N.honest) {r : Round} {v : Hash256}
    (hquorum : (σ i).commitContainer.hasQuorum r = some v) : N.Certified σ v := by
  have hc := (hnode i hi).reachable.containersOk
  have hsize : (σ i).commitContainer.quorumSize = (σ i).config.quorumSize :=
    hc.quorumSize_eq .commit
  have hcard := (hc.wellFormed .commit).quorumSize_le_card hquorum
  refine ⟨r, (σ i).commitContainer.signersWhere r fun m => m.qbftMessage.root = v, ?_, ?_, ?_⟩
  · rw [← (hnode i hi).committee_eq]
    exact hc.signersWhere_subset .commit r _
  · rw [← (hnode i hi).quorumSize_eq, ← hsize]
    exact hcard
  · intro a ha hhonest
    obtain ⟨m, hm, hroot, rfl⟩ := MessageContainer.mem_signersWhere.mp ha
    have hms := hc.stored .commit r m hm
    obtain ⟨u, hu, heq⟩ := (hstored i hi .commit r m hm).exists_sent hnode
      (by simp [hms.operatorIds_eq]) hhonest hms.sound.decoded
    exact ⟨u, hu, by rw [heq, hms.type_eq], by rw [heq, hms.round_eq],
      by rw [heq]; simpa using hroot⟩

theorem certified_of_decided (hi : i ∈ N.honest)
    {w : WrappedQbftMessage} {d : D}
    (he : N.Allowed P σ i (.receive w)) (hw : (σ i).IsDecided w d) :
    N.Certified σ w.qbftMessage.root := by
  have hn := hnode i hi
  have hsound := Qbft.Admissible.sound (hn.reachable.grounded) he.admissible
  have hsent := he.sentBySigners hn hw.height_eq
  refine ⟨Round.ofU64 _ hsound.round_pos, (σ i).uniqueOperators [w.signedMessage], ?_, ?_, ?_⟩
  · rw [← hn.committee_eq]
    exact Qbft.uniqueOperators_subset _ _
  · rw [← hn.quorumSize_eq]
    exact Qbft.hasQuorum_iff.mp hw.quorum
  · intro a ha hhonest
    obtain ⟨⟨m, hm, ham⟩, -⟩ := Qbft.mem_uniqueOperators.mp ha
    rw [List.mem_singleton.mp hm] at ham
    obtain ⟨u, hu, heq⟩ := hsent.exists_sent hnode ham hhonest hsound.decoded
    exact ⟨u, hu, by rw [heq, hw.type_eq], by rw [heq, Round.toU64_ofU64], by rw [heq]⟩

theorem Genuine.stored_step (h : N.Genuine σ)
    (he : N.Allowed P σ i e)
    {j : OperatorId} (hj : j ∈ N.honest) {t : QbftMessageType} {r : Round}
    {m : WrappedQbftMessage}
    (hm : m ∈ ((Network.step σ i e j).container t).getMessagesForRound r) :
    N.SentBySigners σ m.signedMessage := by
  by_cases hij : j = i
  · subst hij
    rw [step_self] at hm
    have ht := (hnode j hj).transition he.admissible
    rcases ht.container_cases t with heq | ⟨w, s, r', b, rfl, hfrom, -, -, -, hadd⟩
    · exact h.stored j hj t r m (heq ▸ hm)
    · rcases MessageContainer.mem_getMessagesForRound_of_addMessage hadd hm with hm | ⟨-, rfl⟩
      · exact h.stored j hj t r m hm
      · exact he.sentBySigners (hnode j hj) hfrom.height_eq
  · rw [step_of_ne hij] at hm
    exact h.stored j hj t r m hm

theorem Genuine.step (h : N.Genuine σ)
    (he : N.Allowed P σ i e)
    (hnode' : ∀ j ∈ N.honest, N.Node j (Network.step σ i e j)) :
    N.Genuine (Network.step σ i e) := by
  have hi := he.mem_honest
  have hmono := (hnode i hi).sent_mono he
  have hstored : ∀ j ∈ N.honest, ∀ t r m,
      m ∈ ((Network.step σ i e j).container t).getMessagesForRound r →
        N.SentBySigners (Network.step σ i e) m.signedMessage :=
    fun j hj t r m hm => (h.stored_step hnode he hj hm).mono hmono
  refine ⟨hstored, fun j hj v hv => ?_⟩
  by_cases hij : j = i
  · subst hij
    rw [step_self] at hv
    rcases ((hnode j hj).transition he.admissible).success_cases hv with
      hv | hquorum | ⟨w, d, rfl, hw, rfl⟩
    · exact (h.success j hj v hv).mono hmono
    · rw [← step_self (i := j)] at hquorum
      exact certified_of_stored hnode' hstored hj hquorum
    · exact (certified_of_decided hnode hj he hw).mono hmono
  · rw [step_of_ne hij] at hv
    exact (h.success j hj v hv).mono hmono

end

theorem Started.genuine (h : N.Started σ) : N.Genuine σ := by
  have hnew : ∀ i ∈ N.honest, (∀ t r, ((σ i).container t).getMessagesForRound r = []) ∧
      (σ i).completed = none := by
    intro i hi
    obtain ⟨config, startData, dataValidator, -, -, -, -, heq⟩ := h i hi
    obtain ⟨data, out, -, hnew⟩ := Qbft.exists_new config startData dataValidator N.identifier
    rw [heq, hnew]
    exact ⟨fun t r => by cases t <;> rfl, rfl⟩
  constructor
  · intro i hi t r m hm
    rw [(hnew i hi).1] at hm
    cases hm
  · intro i hi v hv
    rw [(hnew i hi).2] at hv
    cases hv

variable {es : List (OperatorId × Qbft.Event)}

theorem Run.genuine (hstart : N.Started σ) (h : N.Run P σ es τ) : N.Genuine τ := by
  induction h with
  | nil => exact hstart.genuine
  | snoc hrun he ih =>
    exact ih.step (hrun.node hstart.node) he ((hrun.snoc he).node hstart.node)

theorem Run.sent_mono (hnode : ∀ i ∈ N.honest, N.Node i (σ i))
    (h : N.Run P σ es τ) (j : OperatorId) : (σ j).sent ⊆ (τ j).sent := by
  induction h with
  | nil => exact List.Subset.refl _
  | snoc hrun he ih =>
    have hnode' := hrun.node hnode _ he.mem_honest
    exact List.Subset.trans ih (hnode'.sent_mono he j)

end Genuine

/-! ## Justifications of proposals -/

/-- The round changes that a proposal carries are genuine, in the proposals that
are stored and in those that were sent. -/
structure GenuineProposals (N : Network K) (σ : World F D) : Prop where
  stored : ∀ i ∈ N.honest, ∀ r m, m ∈ (σ i).proposeContainer.getMessagesForRound r →
    ∀ rc ∈ decodedMessages m.qbftMessage.roundChangeJustification, N.SentBySigners σ rc
  sent : ∀ i ∈ N.honest, ∀ u ∈ (σ i).sent, u.qbftMessage.qbftMessageType = .proposal →
    ∀ rc ∈ decodedMessages u.qbftMessage.roundChangeJustification, N.SentBySigners σ rc

section GenuineProposals

variable {N : Network K} {P : WrappedQbftMessage → Prop} {σ τ : World F D} {i : OperatorId}
  {e : Qbft.Event}

omit [LeaderFunction F] [QbftData D] in
theorem Genuine.carriesOnly (h : N.Genuine σ) (hi : i ∈ N.honest) {msg : QbftMessage} {r : Round}
    (hmsg : msg.CarriesOnly ((σ i).roundChangeContainer.getMessagesForRound r)) :
    ∀ rc ∈ decodedMessages msg.roundChangeJustification, N.SentBySigners σ rc := by
  intro rc hrc
  obtain ⟨bytes, hbytes, hdecode⟩ := List.mem_filterMap.mp hrc
  obtain ⟨m, hm, heq⟩ := hmsg bytes hbytes
  rw [heq, SignedSSVMessage.fromSszBytes_asSszBytes] at hdecode
  cases hdecode
  exact h.stored i hi .roundChange r m hm

theorem GenuineProposals.step (hnode : ∀ i ∈ N.honest, N.Node i (σ i)) (h : N.GenuineProposals σ)
    (he : N.Allowed N.Bound σ i e) (hgenuine : N.Genuine (Network.step σ i e)) :
    N.GenuineProposals (Network.step σ i e) := by
  have hi := he.mem_honest
  have ht := (hnode i hi).transition he.admissible
  have hmono := (hnode i hi).sent_mono he
  constructor
  · intro j hj r m hm rc hrc
    refine SentBySigners.mono hmono ?_
    by_cases hij : j = i
    · subst hij
      rw [step_self] at hm
      rcases ht.container_cases .proposal with heq | ⟨w, s, r', b, rfl, -, htype, -, -, hadd⟩
      · exact h.stored j hj r m (by rwa [← show _ = (σ j).proposeContainer from heq]) rc hrc
      · rcases MessageContainer.mem_getMessagesForRound_of_addMessage hadd hm with hm | ⟨-, rfl⟩
        · exact h.stored j hj r m hm rc hrc
        · rcases he.2 with ⟨hw, hbound⟩ | ⟨u, hu, signature, hsign⟩
          · exact hw.justification_genuine hbound hrc
          · obtain ⟨-, -, -, -, -, hmsg⟩ := UnsignedWrappedQbftMessage.sign_eq_ok hsign
            rw [hmsg] at hrc htype
            exact h.sent j hj u hu htype rc hrc
    · rw [step_of_ne hij] at hm
      exact h.stored j hj r m hm rc hrc
  · intro j hj u hu htype
    by_cases hij : j = i
    · subst hij
      have hnew := hu
      rw [step_self] at hnew
      rcases ht.mem_sent ((hnode j hj).reachable.containersOk) hnew with hold | ⟨-, hemission⟩
      · exact fun rc hrc => (h.sent j hj u hold htype rc hrc).mono hmono
      · cases hemission with
        | proposal _ _ _ hjust =>
          rw [← step_self (i := j)] at hjust
          exact hgenuine.carriesOnly hj hjust
        | prepare htype' _ _ => simp [htype] at htype'
        | commit htype' _ _ _ _ => simp [htype] at htype'
        | roundChange htype' _ _ _ _ => simp [htype] at htype'
    · rw [step_of_ne hij] at hu
      exact fun rc hrc => (h.sent j hj u hu htype rc hrc).mono hmono

theorem Started.genuineProposals (h : N.Started σ) : N.GenuineProposals σ := by
  have hgenuine := h.genuine
  constructor
  · intro i hi r m hm
    obtain ⟨config, startData, dataValidator, -, -, -, -, heq⟩ := h i hi
    obtain ⟨data, out, -, hnew⟩ := Qbft.exists_new config startData dataValidator N.identifier
    rw [heq, hnew] at hm
    cases hm
  · intro i hi u hu _
    obtain ⟨config, startData, dataValidator, -, -, -, -, heq⟩ := h i hi
    obtain ⟨data, out, hout, hnew⟩ := Qbft.exists_new config startData dataValidator N.identifier
    rw [heq, hnew] at hu
    rcases hout.cases_out with rfl | ⟨u', rfl, -, -, hjust⟩
    · cases hu
    · obtain rfl := List.mem_singleton.mp hu
      refine hgenuine.carriesOnly hi (r := config.round) ?_
      rw [heq, hnew]
      exact hjust

theorem Run.genuineProposals (hstart : N.Started σ) {es : List (OperatorId × Qbft.Event)}
    (h : N.Run N.Bound σ es τ) :
    N.GenuineProposals τ := by
  induction h with
  | nil => exact hstart.genuineProposals
  | snoc hrun he ih =>
    exact ih.step (hrun.node hstart.node) he ((hrun.snoc he).genuine hstart)

end GenuineProposals

end Network

end Anchor
