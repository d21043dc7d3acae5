import Mathlib
import Anchor.Qbft.Evidence
import Anchor.Qbft.Justification

/-!
# What an instance has sent

Every step adds at most one message to the log of sent messages.  The log tells
what the instance accepted, committed and reported in each round; the invariants
here are the promises that the other members of the committee rely on.
-/

namespace Anchor

open Ssz

def QbftMessage.CarriesOnly (m : QbftMessage) (ms : List WrappedQbftMessage) : Prop :=
  ∀ bytes ∈ m.roundChangeJustification.toList, ∃ rc ∈ ms,
    bytes.toList = rc.signedMessage.withoutFullData.asSszBytes

namespace Qbft

variable {F D : Type}

def Sent (q : Qbft F D) (t : QbftMessageType) (r : Round) (v : Hash256) : Prop :=
  ∃ u ∈ q.sent, u.qbftMessage.qbftMessageType = t ∧ u.qbftMessage.round = r.toU64 ∧
    u.qbftMessage.root = v

/-- The messages are no two votes or round changes of one type and round. -/
def Distinct (a b : UnsignedWrappedQbftMessage) : Prop :=
  a.qbftMessage.qbftMessageType = b.qbftMessage.qbftMessageType →
    a.qbftMessage.qbftMessageType ≠ .proposal → a.qbftMessage.round ≠ b.qbftMessage.round

instance : Std.Symm Distinct :=
  ⟨fun _ _ h htype hne heq => h htype.symm (htype ▸ hne) heq.symm⟩

/-- What holds of a message `b` sent after `a`: it repeats no vote, and it is no
vote for a round that was left. -/
def Follows (a b : UnsignedWrappedQbftMessage) : Prop :=
  Distinct a b ∧
  (a.qbftMessage.qbftMessageType = .roundChange →
    b.qbftMessage.qbftMessageType = .prepare ∨ b.qbftMessage.qbftMessageType = .commit →
      a.qbftMessage.round ≤ b.qbftMessage.round)

/-- The message a step from `q` to `q'` sends, with what the step did. -/
inductive Emission (q q' : Qbft F D) (u : UnsignedWrappedQbftMessage) : Prop where
  | proposal (htype : u.qbftMessage.qbftMessageType = .proposal)
      (hbefore : q.roundChangeContainer.hasQuorumDisregardingRoot q'.currentRound = false)
      (hquorum : q'.roundChangeContainer.hasQuorumDisregardingRoot q'.currentRound = true)
      (hjust : u.qbftMessage.CarriesOnly (q'.roundChangeContainer.getMessagesForRound
        q'.currentRound))
  | prepare (htype : u.qbftMessage.qbftMessageType = .prepare)
      (hnone : q.proposeContainer.getMessagesForRound q'.currentRound = [])
      (hstored : ∃ m ∈ q'.proposeContainer.getMessagesForRound q'.currentRound,
        m.qbftMessage.root = u.qbftMessage.root)
  | commit (htype : u.qbftMessage.qbftMessageType = .commit)
      (hround : q'.currentRound = q.currentRound)
      (hstate : q.state = .prepare u.qbftMessage.root)
      (hstate' : q'.state = .commit u.qbftMessage.root)
      (hlast : q'.lastPreparedRound = some q'.currentRound)
  | roundChange (htype : u.qbftMessage.qbftMessageType = .roundChange)
      (hround : q.currentRound < q'.currentRound) (hstate : q'.state = .sentRoundChange)
      (hprepared : ∀ r v, q.lastPreparedRound = some r → q.lastPreparedValue = some v →
        u.qbftMessage.dataRound = r.toU64 ∧ u.qbftMessage.root = v)
      (hnone : q.lastPreparedRound = none → u.qbftMessage.dataRound = 0)

variable [LeaderFunction F] [QbftData D]

section Emission

variable {q q' : Qbft F D} {e : Event}

omit [LeaderFunction F] [QbftData D] in
theorem carriesOnly_of_encodes {u : QbftMessage}
    (h : Encodes q.getRoundChangeJustifications u.roundChangeJustification) :
    u.CarriesOnly (q.roundChangeContainer.getMessagesForRound q.currentRound) := by
  intro bytes hbytes
  have hmem : bytes.toList ∈ u.roundChangeJustification.toList.map VariableList.toList :=
    List.mem_map_of_mem hbytes
  rw [h] at hmem
  obtain ⟨m, hm, heq⟩ := List.mem_map.mp hmem
  have hsub : m ∈ (q.roundChangeContainer.getMessagesForRound q.currentRound).map
      WrappedQbftMessage.signedMessage := by
    unfold getRoundChangeJustifications at hm
    dsimp only at hm
    split_ifs at hm
    · cases hm
    · exact hm
    · cases hm
    · cases hm
  obtain ⟨rc, hrc, rfl⟩ := List.mem_map.mp hsub
  exact ⟨rc, hrc, heq.symm⟩

variable {out : List UnsignedWrappedQbftMessage}

theorem ProposalOut.cases_out {data : Hash256 → Option D}
    (h : ProposalOut q data out) :
    out = [] ∨ ∃ u, out = [u] ∧ u.qbftMessage.qbftMessageType = .proposal ∧
      u.qbftMessage.round = q.currentRound.toU64 ∧ u.qbftMessage.CarriesOnly
        (q.roundChangeContainer.getMessagesForRound q.currentRound) := by
  cases h with
  | waiting => exact Or.inl rfl
  | failed hd hleader => exact Or.inl rfl
  | sent hd hleader hl => exact Or.inr ⟨_, rfl, rfl, rfl, carriesOnly_of_encodes hl⟩

omit [LeaderFunction F] in
theorem RoundChangeOut.cases_out {b b' : Bool}
    (h : RoundChangeOut q b b' out) :
    out = [] ∨ ∃ u, out = [u] ∧ u.qbftMessage.qbftMessageType = .roundChange ∧
      u.qbftMessage.round = q.currentRound.toU64 ∧
      (∀ r v, q.lastPreparedRound = some r → q.lastPreparedValue = some v →
        u.qbftMessage.dataRound = r.toU64 ∧ u.qbftMessage.root = v) ∧
      (q.lastPreparedRound = none → u.qbftMessage.dataRound = 0) := by
  cases h with
  | failed hfits => exact Or.inl rfl
  | sent hl =>
    refine Or.inr ⟨_, rfl, rfl, ?_, ?_, ?_⟩
    · simp only [unsignedMessage, getMessageData]
      split <;> rfl
    · intro r v hr hv
      simp [unsignedMessage, getMessageData, hr, hv]
    · intro hr
      simp [unsignedMessage, getMessageData, hr]

omit [QbftData D] in
/-- If the leader of a round has no proposal stored, nobody has: all stored
proposals of a round are its leader's. -/
theorem ContainersOk.proposals_eq_nil (hc : q.ContainersOk) {s : OperatorId} {r : Round}
    (hleader : q.checkLeader s r = true) (hnew : s ∉ q.proposeContainer.senders r) :
    q.proposeContainer.getMessagesForRound r = [] := by
  apply List.eq_nil_iff_forall_not_mem.mpr
  intro m hm
  have hstored := hc.stored .proposal r m hm
  have hsigner : m.signer = s := LeaderFunction.leader_unique hstored.checked.1 hleader
  apply hnew
  have hsenders : q.proposeContainer.senders r = _ := (hc.wellFormed .proposal).senders_eq r
  rw [hsenders, List.mem_toFinset, ← hsigner]
  exact List.mem_map_of_mem hm

variable (h : Transition q e q') (hc : q.ContainersOk)
include h hc

theorem Transition.emission :
    q'.sent = q.sent ∨ ∃ u, q'.sent = q.sent ++ [u] ∧
      u.qbftMessage.round = q'.currentRound.toU64 ∧ Emission q q' u := by
  cases h with
  | @proposalAccepted w s r d c hw hadd hflag =>
    have hnil :=
      hc.proposals_eq_nil hw.leader (MessageContainer.notMem_senders_of_addMessage hadd)
    refine Or.inr ⟨_, rfl, rfl, Emission.prepare rfl hnil ⟨w, ?_, rfl⟩⟩
    simp [MessageContainer.getMessagesForRound_of_addMessage hadd]
  | prepared hw hadd hflag hquorum hstate =>
    exact Or.inr ⟨_, rfl, rfl, Emission.commit rfl rfl hstate rfl rfl⟩
  | roundChangeQuorum hw hadd hbefore hquorum hout hstart =>
    rcases hout.cases_out with rfl | ⟨u, rfl, htype, hround, hjust⟩
    · exact Or.inl (List.append_nil _)
    · exact Or.inr ⟨u, rfl, hround, Emission.proposal htype hbefore hquorum hjust⟩
  | roundChangePartial hw hadd hnone hlowest hout =>
    rcases hout.cases_out with rfl | ⟨u, rfl, htype, hround, hprepared, hnone⟩
    · exact Or.inl (List.append_nil _)
    · exact Or.inr ⟨u, rfl, hround, Emission.roundChange htype
        (MessageContainer.exists_of_lowestPartialQuorumAboveRound hlowest).1 rfl hprepared hnone⟩
  | timeout hnext hmax hout =>
    rcases hout.cases_out with rfl | ⟨u, rfl, htype, hround, hprepared, hnone⟩
    · exact Or.inl (List.append_nil _)
    · refine Or.inr ⟨u, rfl, hround, Emission.roundChange htype ?_ rfl hprepared hnone⟩
      rw [Round.lt_def, Round.get_of_next hnext]
      exact Nat.lt_succ_self _
  | _ => exact Or.inl rfl

theorem Transition.mem_sent {u : UnsignedWrappedQbftMessage} (hu : u ∈ q'.sent) :
    u ∈ q.sent ∨ u.qbftMessage.round = q'.currentRound.toU64 ∧ Emission q q' u := by
  rcases h.emission hc with heq | ⟨u', heq, hnew⟩
  · exact Or.inl (heq ▸ hu)
  · rw [heq] at hu
    rcases List.mem_append.mp hu with hu | hu
    · exact Or.inl hu
    · rw [List.mem_singleton.mp hu]
      exact Or.inr hnew

theorem Transition.sent_mono :
    q.sent ⊆ q'.sent := by
  rcases h.emission hc with heq | ⟨u, heq, -⟩ <;> simp [heq]

theorem Transition.sent
    {t : QbftMessageType} {r : Round} {v : Hash256} (hs : q.Sent t r v) : q'.Sent t r v := by
  obtain ⟨u, hu, hrest⟩ := hs
  exact ⟨u, h.sent_mono hc hu, hrest⟩

/-- A step that waits for prepares has done so in the same round before or has
accepted the first proposal for its round. -/
theorem Transition.prepare_cases {v : Hash256} (hv : q'.state = .prepare v) :
    q.state = .prepare v ∧ q'.currentRound = q.currentRound ∨
      q.proposeContainer.getMessagesForRound q'.currentRound = [] := by
  cases h with
  | proposalAccepted hw hadd hflag =>
    exact Or.inr (hc.proposals_eq_nil hw.leader
      (MessageContainer.notMem_senders_of_addMessage hadd))
  | prepared hw hadd hflag hquorum hstate => cases hv
  | committed hw hadd hflag hroot hquorum hstate haggregate => cases hv
  | decided hw => cases hv
  | roundChangeQuorum hw hadd hbefore hquorum hout hstart => cases hv
  | roundChangePartial hw hadd hnone hlowest hout => cases hv
  | timedOut hlast => cases hv
  | timeout hnext hmax hout => cases hv
  | _ => exact Or.inl ⟨hv, rfl⟩

end Emission

/-! ## Promises -/

/-- The promises of an instance, read off its log. -/
structure SentOk (q : Qbft F D) : Prop where
  start_le : q.config.round ≤ q.currentRound
  round_le : ∀ u ∈ q.sent, u.qbftMessage.round ≤ q.currentRound.toU64
  ordered : q.sent.Pairwise Follows
  proposal : ∀ r v, q.Sent .prepare r v →
    ∃ m ∈ q.proposeContainer.getMessagesForRound r, m.qbftMessage.root = v
  voting : ∀ v, q.state = .prepare v ∨ q.state = .commit v → q.Sent .prepare q.currentRound v
  committed : ∀ r v, q.Sent .commit r v → q.Sent .prepare r v ∧
    (r = q.currentRound → ∀ x, q.state ≠ .prepare x) ∧ ∃ l, q.lastPreparedRound = some l ∧ r ≤ l
  prepared : ∀ r v, q.lastPreparedRound = some r → q.lastPreparedValue = some v →
    q.Sent .prepare r v
  roundChange_gt : ∀ u ∈ q.sent, u.qbftMessage.qbftMessageType = .roundChange →
    q.config.round.toU64 < u.qbftMessage.round
  roundChange_prepared : ∀ u ∈ q.sent, u.qbftMessage.qbftMessageType = .roundChange →
    u.qbftMessage.dataRound ≠ 0 → ∃ d : Round, u.qbftMessage.dataRound = d.toU64 ∧
      d.toU64 < u.qbftMessage.round ∧ q.Sent .prepare d u.qbftMessage.root
  locked : ∀ u ∈ q.sent, u.qbftMessage.qbftMessageType = .roundChange →
    ∀ r v, q.Sent .commit r v → r.toU64 < u.qbftMessage.round →
      r.toU64 ≤ u.qbftMessage.dataRound

section Promises

variable {q q' : Qbft F D} {e : Event}

theorem Transition.voting (h : Transition q e q') (hq : q.SentOk) (hc : q.ContainersOk)
    {v : Hash256} (hv : q'.state = .prepare v ∨ q'.state = .commit v) :
    q'.Sent .prepare q'.currentRound v := by
  have ht := h
  cases h with
  | @proposalAccepted w s r d c hw hadd hflag =>
    rcases hv with hv | hv
    · cases hv
      exact ⟨_, List.mem_append_right _ (List.mem_singleton.mpr rfl), rfl, rfl, rfl⟩
    · cases hv
  | prepared hw hadd hflag hquorum hstate =>
    rcases hv with hv | hv
    · cases hv
    · cases hv
      exact ht.sent hc (hq.voting _ (Or.inl hstate))
  | committed hw hadd hflag hroot hquorum hstate haggregate => rcases hv with hv | hv <;> cases hv
  | decided hw => rcases hv with hv | hv <;> cases hv
  | roundChangeQuorum hw hadd hbefore hquorum hout hstart => rcases hv with hv | hv <;> cases hv
  | roundChangePartial hw hadd hnone hlowest hout => rcases hv with hv | hv <;> cases hv
  | timedOut hlast => rcases hv with hv | hv <;> cases hv
  | timeout hnext hmax hout => rcases hv with hv | hv <;> cases hv
  | _ => exact ht.sent hc (hq.voting v hv)

variable {u : UnsignedWrappedQbftMessage}

omit [LeaderFunction F] [QbftData D] in
theorem SentOk.follows (hq : q.SentOk) (hmono : q.currentRound ≤ q'.currentRound)
    (hround : u.qbftMessage.round = q'.currentRound.toU64)
    (hu : Emission q q' u) : ∀ a ∈ q.sent, Follows a u := by
  intro a ha
  have hle : a.qbftMessage.round ≤ q'.currentRound.toU64 :=
    UInt64.le_trans (hq.round_le a ha) (toU64_le_iff.mpr hmono)
  refine ⟨fun htypes hne heq => ?_, fun _ _ => hround ▸ hle⟩
  rw [hround] at heq
  cases hu with
  | proposal htype hbefore hquorum hjust => exact hne (htypes.trans htype)
  | prepare htype hnone hstored =>
    -- A second prepare would need a second proposal of the leader.
    obtain ⟨m, hm, -⟩ := hq.proposal _ _ ⟨a, ha, htypes.trans htype, heq, rfl⟩
    rw [hnone] at hm
    cases hm
  | commit htype hround hstate hstate' hlast =>
    rw [hround] at heq
    exact (hq.committed _ _ ⟨a, ha, htypes.trans htype, heq, rfl⟩).2.1 rfl _ hstate
  | roundChange htype hlt hstate hprepared hnone =>
    have hold := hq.round_le a ha
    rw [heq, toU64_le_iff] at hold
    exact absurd hlt (not_lt.mpr hold)

theorem SentOk.committed_transition (hq : q.SentOk) (hc : q.ContainersOk)
    (hp : q.PreparedOk) (h : Transition q e q') {r : Round} {v : Hash256}
    (hs : q'.Sent .commit r v) :
    q'.Sent .prepare r v ∧ (r = q'.currentRound → ∀ x, q'.state ≠ .prepare x) ∧
      ∃ l, q'.lastPreparedRound = some l ∧ r ≤ l := by
  obtain ⟨u, hu, htype, hround, rfl⟩ := hs
  rcases h.mem_sent hc hu with hu | ⟨hnew, hemission⟩
  · obtain ⟨hprepare, hstate, l, hl, hle⟩ := hq.committed r _ ⟨u, hu, htype, hround, rfl⟩
    refine ⟨h.sent hc hprepare, fun heq x hx => ?_, ?_⟩
    · rcases h.prepare_cases hc hx with ⟨hx, hcur⟩ | hnone
      · exact hstate (heq.trans hcur) x hx
      · obtain ⟨m, hm, -⟩ := hq.proposal _ _ hprepare
        rw [heq, hnone] at hm
        cases hm
    · rcases h.lastPrepared_cases with ⟨hlast, -⟩ | ⟨-, hlast, -⟩
      · exact ⟨l, hlast.trans hl, hle⟩
      · exact ⟨_, hlast, hle.trans (hp.round_le l hl)⟩
  · cases hemission with
    | commit _ hcur hstate hstate' hlast =>
      obtain rfl : r = q'.currentRound := Round.toU64_injective (hround.symm.trans hnew)
      refine ⟨?_, fun _ x hx => ?_, _, hlast, le_rfl⟩
      · rw [hcur]
        exact h.sent hc (hq.voting _ (Or.inl hstate))
      · rw [hstate'] at hx
        cases hx
    | proposal htype' _ _ _ => simp [htype] at htype'
    | prepare htype' _ _ => simp [htype] at htype'
    | roundChange htype' _ _ _ _ => simp [htype] at htype'

theorem SentOk.roundChange_transition (hq : q.SentOk) (hc : q.ContainersOk)
    (hp : q.PreparedOk) (h : Transition q e q')
    (hu : u ∈ q'.sent) (htype : u.qbftMessage.qbftMessageType = .roundChange)
    (hne : u.qbftMessage.dataRound ≠ 0) :
    ∃ d : Round, u.qbftMessage.dataRound = d.toU64 ∧ d.toU64 < u.qbftMessage.round ∧
      q'.Sent .prepare d u.qbftMessage.root := by
  rcases h.mem_sent hc hu with hu | ⟨hnew, hemission⟩
  · obtain ⟨d, hd, hlt, hsent⟩ := hq.roundChange_prepared u hu htype hne
    exact ⟨d, hd, hlt, h.sent hc hsent⟩
  · cases hemission with
    | roundChange _ hlt _ hprepared hnone =>
      cases hr : q.lastPreparedRound with
      | none => exact absurd (hnone hr) hne
      | some d =>
        obtain ⟨v, hv⟩ : ∃ v, q.lastPreparedValue = some v := by
          rw [← Option.isSome_iff_exists, ← hp.both, hr]
          rfl
        obtain ⟨hd, hroot⟩ := hprepared d v hr hv
        refine ⟨d, hd, ?_, ?_⟩
        · rw [hnew, toU64_lt_iff]
          exact (hp.round_le d hr).trans_lt hlt
        · rw [hroot]
          exact h.sent hc (hq.prepared d v hr hv)
    | proposal htype' _ _ _ => simp [htype] at htype'
    | prepare htype' _ _ => simp [htype] at htype'
    | commit htype' _ _ _ _ => simp [htype] at htype'

/-- A round change for a later round reports a round at least as high as every
round the instance committed in before. -/
theorem SentOk.locked_transition (hq : q.SentOk) (hc : q.ContainersOk)
    (hp : q.PreparedOk) (h : Transition q e q')
    (hu : u ∈ q'.sent) (htype : u.qbftMessage.qbftMessageType = .roundChange) {r : Round}
    {v : Hash256} (hs : q'.Sent .commit r v) (hlt : r.toU64 < u.qbftMessage.round) :
    r.toU64 ≤ u.qbftMessage.dataRound := by
  have hround : u.qbftMessage.round ≤ q'.currentRound.toU64 := by
    rcases h.mem_sent hc hu with hu | ⟨hnew, -⟩
    · exact UInt64.le_trans (hq.round_le u hu) (toU64_le_iff.mpr h.currentRound_le)
    · exact hnew ▸ UInt64.le_refl _
  obtain ⟨a, ha, hcommit, hra, rfl⟩ := hs
  rcases h.mem_sent hc ha with ha | ⟨hnew, -⟩
  · obtain ⟨-, -, l, hl, hle⟩ := hq.committed r _ ⟨a, ha, hcommit, hra, rfl⟩
    rcases h.mem_sent hc hu with hu | ⟨-, hemission⟩
    · exact hq.locked u hu htype r _ ⟨a, ha, hcommit, hra, rfl⟩ hlt
    · cases hemission with
      | roundChange _ _ _ hprepared _ =>
        obtain ⟨x, hx⟩ : ∃ x, q.lastPreparedValue = some x := by
          rw [← Option.isSome_iff_exists, ← hp.both, hl]
          rfl
        rw [(hprepared l x hl hx).1, toU64_le_iff]
        exact hle
      | proposal htype' _ _ _ => simp [htype] at htype'
      | prepare htype' _ _ => simp [htype] at htype'
      | commit htype' _ _ _ _ => simp [htype] at htype'
  · -- A commit is sent for the current round, which no round change exceeds.
    rw [← hra, hnew] at hlt
    exact absurd hround (UInt64.not_le.mpr hlt)

theorem SentOk.transition (hq : q.SentOk) (hc : q.ContainersOk) (hp : q.PreparedOk)
    (h : Transition q e q') : q'.SentOk := by
  have hconfig := h.static.1
  have hmono := h.currentRound_le
  refine ⟨?_, ?_, ?_, ?_, fun v hv => h.voting hq hc hv,
    fun r v hs => hq.committed_transition hc hp h hs, ?_, ?_,
    fun u hu htype hne => hq.roundChange_transition hc hp h hu htype hne,
    fun u hu htype r v hs hlt => hq.locked_transition hc hp h hu htype hs hlt⟩
  · rw [hconfig]
    exact hq.start_le.trans hmono
  · intro u hu
    rcases h.mem_sent hc hu with hu | ⟨hnew, -⟩
    · exact UInt64.le_trans (hq.round_le u hu) (toU64_le_iff.mpr hmono)
    · exact hnew ▸ UInt64.le_refl _
  · rcases h.emission hc with heq | ⟨u, heq, hround, hemission⟩
    · exact heq ▸ hq.ordered
    · rw [heq]
      refine List.pairwise_append.mpr ⟨hq.ordered, List.pairwise_singleton _ _, ?_⟩
      intro a ha b hb
      rw [List.mem_singleton.mp hb]
      exact hq.follows hmono hround hemission a ha
  · rintro r v ⟨u, hu, htype, hround, rfl⟩
    rcases h.mem_sent hc hu with hu | ⟨hnew, hemission⟩
    · obtain ⟨m, hm, hroot⟩ := hq.proposal r _ ⟨u, hu, htype, hround, rfl⟩
      exact ⟨m, (h.sublist .proposal r).subset hm, hroot⟩
    · obtain rfl : r = q'.currentRound := Round.toU64_injective (hround.symm.trans hnew)
      cases hemission with
      | prepare _ _ hstored => exact hstored
      | proposal htype' _ _ _ => simp [htype] at htype'
      | commit htype' _ _ _ _ => simp [htype] at htype'
      | roundChange htype' _ _ _ _ => simp [htype] at htype'
  · intro r v hr hv
    rcases h.lastPrepared_cases with ⟨hround, hvalue⟩ | ⟨x, hround, hvalue, -, hstate, -⟩
    · exact h.sent hc (hq.prepared r v (hround ▸ hr) (hvalue ▸ hv))
    · rw [hround] at hr
      rw [hvalue] at hv
      cases hr
      cases hv
      exact h.sent hc (hq.voting _ (Or.inl hstate))
  · intro u hu htype
    rw [hconfig]
    rcases h.mem_sent hc hu with hu | ⟨hnew, hemission⟩
    · exact hq.roundChange_gt u hu htype
    · rw [hnew, toU64_lt_iff]
      cases hemission with
      | roundChange _ hlt _ _ _ => exact hq.start_le.trans_lt hlt
      | proposal htype' _ _ _ => simp [htype] at htype'
      | prepare htype' _ _ => simp [htype] at htype'
      | commit htype' _ _ _ _ => simp [htype] at htype'

theorem sentOk_initial (config : Config F) (startData : D) (dataValidator : D → D → Bool)
    (identifier : MessageId) {data : Hash256 → Option D} {out : List UnsignedWrappedQbftMessage}
    (h : ProposalOut (initial config startData dataValidator identifier) data out) :
    SentOk
      { initial config startData dataValidator identifier with data := data, sent := out } := by
  have hout : ∀ u ∈ out, u.qbftMessage.qbftMessageType = .proposal ∧
      u.qbftMessage.round = config.round.toU64 := by
    intro u hu
    rcases h.cases_out with rfl | ⟨u', rfl, htype, hround, -⟩
    · cases hu
    · rw [List.mem_singleton.mp hu]
      exact ⟨htype, hround⟩
  have hnone : ∀ {t : QbftMessageType}, t ≠ .proposal → ∀ {r : Round} {v : Hash256},
      ¬ Sent { initial config startData dataValidator identifier with
        data := data, sent := out } t r v := by
    rintro t hne r v ⟨u, hu, htype, -⟩
    exact hne (htype.symm.trans (hout u hu).1)
  have hrc : ∀ u ∈ out, u.qbftMessage.qbftMessageType ≠ .roundChange := by
    intro u hu
    simp [(hout u hu).1]
  refine ⟨le_rfl, ?_, ?_, ?_, by simp [initial], ?_, by simp [initial], ?_, ?_, ?_⟩
  · intro u hu
    exact (hout u hu).2 ▸ UInt64.le_refl _
  · rcases h.cases_out with rfl | ⟨u, rfl, -⟩ <;> simp
  · intro r v hs
    exact absurd hs (hnone (by simp))
  · intro r v hs
    exact absurd hs (hnone (by simp))
  · intro u hu htype
    exact absurd htype (hrc u hu)
  · intro u hu htype
    exact absurd htype (hrc u hu)
  · intro u hu htype
    exact absurd htype (hrc u hu)

theorem Reachable.sentOk {K : Type} {ctx : ValidationContext K}
    (h : Reachable ctx q) : q.SentOk := by
  refine h.invariant ?_ ?_
  · intro config startData dataValidator identifier data out hout
    exact sentOk_initial config startData dataValidator identifier hout
  · intro q e q' hr _ ht hq
    exact hq.transition (hr.containersOk) (hr.preparedOk) ht

omit [LeaderFunction F] [QbftData D] in
theorem SentOk.eq_of_round_eq (hq : q.SentOk) {a b : UnsignedWrappedQbftMessage}
    (ha : a ∈ q.sent) (hb : b ∈ q.sent)
    (htype : a.qbftMessage.qbftMessageType = b.qbftMessage.qbftMessageType)
    (hne : a.qbftMessage.qbftMessageType ≠ .proposal)
    (hround : a.qbftMessage.round = b.qbftMessage.round) : a = b := by
  have hpairs : q.sent.Pairwise Distinct := hq.ordered.imp fun h => h.1
  by_contra hab
  exact hpairs.forall ha hb hab htype hne hround

omit [LeaderFunction F] [QbftData D] in
theorem SentOk.root_unique (hq : q.SentOk) {t : QbftMessageType} (ht : t ≠ .proposal) {r : Round}
    {v w : Hash256} (hv : q.Sent t r v) (hw : q.Sent t r w) : v = w := by
  obtain ⟨a, ha, hta, hra, rfl⟩ := hv
  obtain ⟨b, hb, htb, hrb, rfl⟩ := hw
  rw [hq.eq_of_round_eq ha hb (hta.trans htb.symm) (hta ▸ ht) (hra.trans hrb.symm)]

end Promises

/-! ## Proposals -/

/-- After the first round a proposal rests on a round change quorum, and a quorum
is reached only once. -/
structure ProposalsOk (q : Qbft F D) : Prop where
  quorum : ∀ u ∈ q.sent, u.qbftMessage.qbftMessageType = .proposal →
    u.qbftMessage.round = q.config.round.toU64 ∨ ∃ r : Round, u.qbftMessage.round = r.toU64 ∧
      q.roundChangeContainer.hasQuorumDisregardingRoot r = true
  unique : q.roundChangeContainer.hasQuorumDisregardingRoot q.config.round = false →
    q.sent.Pairwise fun a b => a.qbftMessage.qbftMessageType = .proposal →
      b.qbftMessage.qbftMessageType = .proposal → a.qbftMessage.round ≠ b.qbftMessage.round

section Proposals

variable {q q' : Qbft F D} {e : Event}

theorem Transition.roundChangeQuorum_mono (h : Transition q e q') (hc : q.ContainersOk)
    (hc' : q'.ContainersOk) {r : Round}
    (hr : q.roundChangeContainer.hasQuorumDisregardingRoot r = true) :
    q'.roundChangeContainer.hasQuorumDisregardingRoot r = true := by
  have hpos : ∀ p : Qbft F D, p.ContainersOk → 0 < p.roundChangeContainer.quorumSize := by
    intro p hp
    have hsize : p.roundChangeContainer.quorumSize = p.config.quorumSize :=
      hp.quorumSize_eq .roundChange
    rw [hsize, Config.quorumSize_eq]
    exact Nat.succ_pos _
  have hsize : q'.roundChangeContainer.quorumSize = q.roundChangeContainer.quorumSize := by
    have hold : q.roundChangeContainer.quorumSize = q.config.quorumSize :=
      hc.quorumSize_eq .roundChange
    have hnew : q'.roundChangeContainer.quorumSize = q'.config.quorumSize :=
      hc'.quorumSize_eq .roundChange
    rw [hold, hnew, h.static.1]
  rw [MessageContainer.hasQuorumDisregardingRoot_iff (hpos q hc)] at hr
  rw [MessageContainer.hasQuorumDisregardingRoot_iff (hpos q' hc'), hsize]
  exact hr.trans (h.sublist .roundChange r).length_le

theorem ProposalsOk.transition (hq : q.ProposalsOk) (hc : q.ContainersOk)
    (hc' : q'.ContainersOk) (h : Transition q e q') : q'.ProposalsOk := by
  have hconfig := h.static.1
  constructor
  · intro u hu htype
    rcases h.mem_sent hc hu with hu | ⟨hnew, hemission⟩
    · rcases hq.quorum u hu htype with hround | ⟨r, hround, hr⟩
      · exact Or.inl (hconfig ▸ hround)
      · exact Or.inr ⟨r, hround, h.roundChangeQuorum_mono hc hc' hr⟩
    · cases hemission with
      | proposal _ _ hquorum _ => exact Or.inr ⟨_, hnew, hquorum⟩
      | prepare htype' _ _ => simp [htype] at htype'
      | commit htype' _ _ _ _ => simp [htype] at htype'
      | roundChange htype' _ _ _ _ => simp [htype] at htype'
  · intro hfirst
    rw [hconfig] at hfirst
    have hfirst' : q.roundChangeContainer.hasQuorumDisregardingRoot q.config.round = false := by
      by_contra htrue
      rw [h.roundChangeQuorum_mono hc hc' (by simpa using htrue)] at hfirst
      cases hfirst
    rcases h.emission hc with heq | ⟨u, heq, hround, hemission⟩
    · exact heq ▸ hq.unique hfirst'
    · rw [heq]
      refine List.pairwise_append.mpr ⟨hq.unique hfirst', List.pairwise_singleton _ _, ?_⟩
      intro a ha b hb htypea htypeb
      rw [List.mem_singleton.mp hb] at htypeb ⊢
      intro hsame
      cases hemission with
      | proposal _ hbefore hquorum _ =>
        rcases hq.quorum a ha htypea with hra | ⟨r, hra, hr⟩
        · have hstart : q.config.round = q'.currentRound :=
            Round.toU64_injective (hra.symm.trans (hsame.trans hround))
          rw [hstart, hquorum] at hfirst
          cases hfirst
        · have hr' : r = q'.currentRound :=
            Round.toU64_injective (hra.symm.trans (hsame.trans hround))
          rw [hr', hbefore] at hr
          cases hr
      | prepare htype' _ _ => simp [htypeb] at htype'
      | commit htype' _ _ _ _ => simp [htypeb] at htype'
      | roundChange htype' _ _ _ _ => simp [htypeb] at htype'

theorem Reachable.proposalsOk {K : Type} {ctx : ValidationContext K}
    (h : Reachable ctx q) : q.ProposalsOk := by
  refine h.invariant ?_ ?_
  · intro config startData dataValidator identifier data out hout
    rcases hout.cases_out with rfl | ⟨u, rfl, -, hround, -⟩
    · exact ⟨by simp, by simp⟩
    · refine ⟨fun a ha _ => Or.inl ?_, by simp⟩
      rw [List.mem_singleton.mp ha]
      exact hround
  · intro q e q' hr hsound ht hq
    have hc := hr.containersOk
    exact hq.transition hc (hc.transition hsound ht) ht

end Proposals

end Qbft

end Anchor
