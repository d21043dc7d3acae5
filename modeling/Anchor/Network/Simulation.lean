import Mathlib
import Anchor.Network.Run
import Anchor.Qbft.Simulation
import Anchor.Validator.Signing

/-!
# Executing runs

What a run of a committee may do next is decidable as well, so a script for the
whole committee can be followed.
-/

namespace Anchor

open Ssz

namespace Network

variable {K F D : Type}

section Decidable

variable (N : Network K) (σ : World F D)

instance (m : SignedSSVMessage) : Decidable (N.SentBySigners σ m) :=
  inferInstanceAs (Decidable (∀ s ∈ m.operatorIds.toList, s ∈ N.honest →
    ∃ u ∈ (σ s).sent, u.unsignedMessage.ssvMessage = m.ssvMessage))

instance (m : SignedSSVMessage) : Decidable (N.Unforged σ m) :=
  inferInstanceAs (Decidable (N.belongs m = true →
    N.ctx.verifyMessageSignatures m = .ok () → N.SentBySigners σ m))

instance (w : WrappedQbftMessage) : Decidable (N.Deliverable σ w) :=
  decidable_of_iff (N.ctx.Validated w ∧ w.signedMessage.ssvMessage.msgId = N.identifier ∧
    ∀ m ∈ w.signedMessage.nested 2, N.Unforged σ m)
    ⟨fun h => ⟨h.1, h.2.1, h.2.2⟩, fun h => ⟨h.validated, h.msgId_eq, h.unforged⟩⟩

instance : DecidablePred N.Bound :=
  fun w => inferInstanceAs (Decidable (∀ m ∈ w.signedMessage.nested 2, N.belongs m = true))

end Decidable

inductive Action where
  /-- Deliver the message with the given index in the log of the sender. -/
  | relay (receiver sender : OperatorId) (index : ℕ)
  | inject (receiver : OperatorId) (w : WrappedQbftMessage)
  | timeout (operatorId : OperatorId)

section Simulate

variable (N : Network K) (P : WrappedQbftMessage → Prop) [DecidablePred P]
  (sign : OperatorId → Bytes → VariableList UInt8 256)

def deliver (σ : World F D) (receiver : OperatorId) (w : WrappedQbftMessage) :
    Option (OperatorId × Qbft.Event) :=
  if receiver ∈ N.honest ∧ N.Deliverable σ w ∧ P w then some (receiver, .receive w) else none

def eventOf (σ : World F D) : Action → Option (OperatorId × Qbft.Event)
  | .relay receiver sender index =>
    match (σ sender).signedBy sign index with
    | none => none
    | some w =>
      if receiver = sender ∧ sender ∈ N.honest then
        some (sender, .receive w)
      else N.deliver P σ receiver w
  | .inject receiver w => N.deliver P σ receiver w
  | .timeout operatorId => if operatorId ∈ N.honest then some (operatorId, .endRound) else none

variable [LeaderFunction F] [QbftData D]

def simulate : World F D → List Action → Option (List (OperatorId × Qbft.Event) × World F D)
  | σ, [] => some ([], σ)
  | σ, a :: script =>
    match N.eventOf P sign σ a with
    | none => none
    | some (i, e) =>
      match simulate (step σ i e) script with
      | none => none
      | some (es, τ) => some ((i, e) :: es, τ)

variable {N P sign} {σ τ : World F D}

omit [LeaderFunction F] [QbftData D] in
theorem allowed_of_deliver {receiver i : OperatorId} {w : WrappedQbftMessage} {e : Qbft.Event}
    (h : N.deliver P σ receiver w = some (i, e)) : N.Allowed P σ i e := by
  unfold deliver at h
  split_ifs at h with hw
  cases h
  exact ⟨hw.1, Or.inl hw.2⟩

omit [LeaderFunction F] [QbftData D] in
theorem allowed_of_eventOf {a : Action} {i : OperatorId} {e : Qbft.Event}
    (h : N.eventOf P sign σ a = some (i, e)) : N.Allowed P σ i e := by
  cases a with
  | relay receiver sender index =>
    simp only [eventOf] at h
    split at h
    · cases h
    rename_i w hw
    split_ifs at h with hself
    · cases h
      exact ⟨hself.2, Or.inr (Qbft.loopback_of_signedBy hw)⟩
    · exact allowed_of_deliver h
  | inject receiver w => exact allowed_of_deliver h
  | timeout operatorId =>
    simp only [eventOf] at h
    split_ifs at h with hhonest
    cases h
    exact hhonest

theorem run_of_simulate {script : List Action} {es : List (OperatorId × Qbft.Event)}
    (h : N.simulate P sign σ script = some (es, τ)) : N.Run P σ es τ := by
  induction script generalizing σ es with
  | nil =>
    cases h
    exact Run.nil
  | cons a script ih =>
    simp only [simulate] at h
    split at h
    · cases h
    · rename_i i e hevent
      split at h
      · cases h
      · rename_i es' τ' hrest
        cases h
        exact (Run.nil.snoc (allowed_of_eventOf hevent)).append (ih hrest)

theorem exists_run (Q : World F D → Prop) {script : List Action}
    (h : ∃ r ∈ N.simulate P sign σ script, Q r.2) : ∃ es τ, N.Run P σ es τ ∧ Q τ := by
  obtain ⟨⟨es, τ⟩, hsim, hQ⟩ := h
  exact ⟨es, τ, run_of_simulate hsim, hQ⟩

end Simulate

end Network

namespace Sample

def keys : Signing ctx where
  sign := sign
  length_sign i bs := by
    simp only [sign, List.length_append, length_leBytes, List.length_replicate]
    rfl
  verify_sign i hi := by
    refine ⟨i, ?_, verify_sign i⟩
    have hi' : i ∈ members.toList := hi
    simp [ctx, hi']

def network (honest : Finset OperatorId) (h : (members.toList.toFinset \ honest).card ≤ 1) :
    Network OperatorId where
  ctx := ctx
  identifier := identifier
  height := 0
  honest := honest
  isValidCommitteeSize_len := by decide
  card_byzantine_le := h

def world : World DefaultLeaderFunction Vote :=
  ⟨fun i => if h : i ∈ members.toList then instanceOf i h else instanceOf ⟨1⟩ first_mem⟩

def network3 : Network OperatorId := network {⟨1⟩, ⟨2⟩, ⟨3⟩} (by decide)

def network4 : Network OperatorId := network {⟨1⟩, ⟨2⟩, ⟨3⟩, ⟨4⟩} (by decide)

theorem started_world {honest : Finset OperatorId}
    {h : (members.toList.toFinset \ honest).card ≤ 1} (hsub : honest ⊆ members.toList.toFinset) :
    (network honest h).Started world := by
  intro i hi
  have hmem : i ∈ members.toList := List.mem_toFinset.mp (hsub hi)
  refine ⟨config i hmem, ⟨i.val⟩, fun _ _ => true, rfl, rfl, rfl, rfl, ?_⟩
  simp only [world, hmem, dif_pos]
  rfl

theorem started_network3 : network3.Started world := started_world (by decide)

theorem started_network4 : network4.Started world := started_world (by decide)

end Sample

end Anchor
