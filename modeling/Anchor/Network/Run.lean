import Mathlib
import Anchor.Qbft.Sent

/-!
# Runs of a committee

The honest operators of a committee run one instance each.  Messages are
delivered in any order, any number of times or not at all, and rounds end at any
time.  The other operators may send whatever passes the validator, but they
cannot sign for an honest operator.
-/

namespace Anchor

open Ssz

/-- One consensus instance of a committee in which at most `f` members are not honest. -/
structure Network (K : Type) where
  ctx : ValidationContext K
  identifier : MessageId
  height : UInt64
  honest : Finset OperatorId
  isValidCommitteeSize_len : isValidCommitteeSize ctx.committeeMembers.len = true
  card_byzantine_le : (ctx.committeeMembers.toList.toFinset \ honest).card ≤
    getF ctx.committeeMembers.len

/-- The instances of the operators; only those of honest operators matter. -/
structure World (F D : Type) where
  instances : OperatorId → Qbft F D

instance (F D : Type) : CoeFun (World F D) fun _ => OperatorId → Qbft F D := ⟨World.instances⟩

def decodedMessages {n : ℕ} (justifications : ByteLists n 13) : List SignedSSVMessage :=
  justifications.toList.filterMap fun bytes => SignedSSVMessage.fromSszBytes bytes.toList

theorem mem_decodedMessages {n : ℕ} {l : ByteLists n 13} {ms : List SignedSSVMessage}
    (h : Qbft.decodeAll l = some ms) {m : SignedSSVMessage} (hm : m ∈ ms) :
    m ∈ decodedMessages l := by
  obtain ⟨bytes, hbytes, hdecode⟩ := Qbft.exists_bytes_of_decodeAll h hm
  exact List.mem_filterMap.mpr ⟨bytes, hbytes, hdecode⟩

def QbftMessage.justifications (m : QbftMessage) : List SignedSSVMessage :=
  decodedMessages m.roundChangeJustification ++ decodedMessages m.prepareJustification

def SignedSSVMessage.nested : ℕ → SignedSSVMessage → List SignedSSVMessage
  | 0, m => [m]
  | depth + 1, m =>
    m :: match QbftMessage.fromSszBytes m.ssvMessage.data.toList with
      | none => []
      | some msg => msg.justifications.flatMap (SignedSSVMessage.nested depth)

theorem SignedSSVMessage.mem_nested (depth : ℕ) (m : SignedSSVMessage) : m ∈ m.nested depth := by
  cases depth <;> simp [SignedSSVMessage.nested]

theorem SignedSSVMessage.mem_nested_of_mem_justifications {depth : ℕ} {m n : SignedSSVMessage}
    {msg : QbftMessage} (hdecode : QbftMessage.fromSszBytes m.ssvMessage.data.toList = some msg)
    (hn : n ∈ msg.justifications) : n ∈ m.nested (depth + 1) := by
  simp only [SignedSSVMessage.nested, hdecode, List.mem_cons, List.mem_flatMap]
  exact Or.inr ⟨n, hn, SignedSSVMessage.mem_nested depth n⟩

theorem SignedSSVMessage.nested_of_single {m n : SignedSSVMessage} {msg msg' : QbftMessage}
    (hm : QbftMessage.fromSszBytes m.ssvMessage.data.toList = some msg)
    (hjust : msg.justifications = [n])
    (hn : QbftMessage.fromSszBytes n.ssvMessage.data.toList = some msg')
    (hnone : msg'.justifications = []) : m.nested 2 = [m, n] := by
  simp only [SignedSSVMessage.nested, hm, hjust, hn, hnone, List.flatMap_cons, List.flatMap_nil,
    List.append_nil]

namespace Network

variable {K F D : Type}

def committee (N : Network K) : Finset OperatorId := N.ctx.committeeMembers.toList.toFinset

def f (N : Network K) : ℕ := getF N.ctx.committeeMembers.len

theorem card_committee (N : Network K) : N.committee.card = 3 * N.f + 1 := by
  rw [committee, IndexSet.card_toFinset]
  exact eq_of_isValidCommitteeSize N.isValidCommitteeSize_len

def belongs (N : Network K) (m : SignedSSVMessage) : Bool :=
  match QbftMessage.fromSszBytes m.ssvMessage.data.toList with
  | none => false
  | some msg => m.ssvMessage.msgId = N.identifier ∧
      msg.identifier = N.identifier.toVariableList ∧ msg.height = N.height

/-- The signatures of honest operators on the message are their own: each has
sent it. -/
def SentBySigners (N : Network K) (σ : World F D) (m : SignedSSVMessage) : Prop :=
  ∀ s ∈ m.operatorIds.toList, s ∈ N.honest →
    ∃ u ∈ (σ s).sent, u.unsignedMessage.ssvMessage = m.ssvMessage

/-- Unforgeability: signatures that verify on a message of this instance were made
by their signers. -/
def Unforged (N : Network K) (σ : World F D) (m : SignedSSVMessage) : Prop :=
  N.belongs m = true → N.ctx.verifyMessageSignatures m = .ok () → N.SentBySigners σ m

structure Deliverable (N : Network K) (σ : World F D) (w : WrappedQbftMessage) : Prop where
  validated : N.ctx.Validated w
  msgId_eq : w.signedMessage.ssvMessage.msgId = N.identifier
  unforged : ∀ m ∈ w.signedMessage.nested 2, N.Unforged σ m

/-- Every message and nested justification is one of this instance. -/
def Bound (N : Network K) (w : WrappedQbftMessage) : Prop :=
  ∀ m ∈ w.signedMessage.nested 2, N.belongs m = true

variable [LeaderFunction F] [QbftData D]

def Started (N : Network K) (σ : World F D) : Prop :=
  ∀ i ∈ N.honest, ∃ (config : Config F) (startData : D) (dataValidator : D → D → Bool),
    config.operatorId = i ∧ config.committee = N.committee ∧ config.instanceHeight = N.height ∧
      config.round = Round.default ∧
      σ i = Qbft.new config startData dataValidator N.identifier

def Allowed (N : Network K) (P : WrappedQbftMessage → Prop) (σ : World F D) (i : OperatorId) :
    Qbft.Event → Prop
  | .receive w => i ∈ N.honest ∧ (N.Deliverable σ w ∧ P w ∨ (σ i).Loopback w)
  | .endRound => i ∈ N.honest

def step (σ : World F D) (i : OperatorId) (e : Qbft.Event) : World F D :=
  ⟨Function.update σ i ((σ i).apply e)⟩

inductive Run (N : Network K) (P : WrappedQbftMessage → Prop) (σ : World F D) :
    List (OperatorId × Qbft.Event) → World F D → Prop where
  | nil : Run N P σ [] σ
  | snoc {es : List (OperatorId × Qbft.Event)} {τ : World F D} {i : OperatorId} {e : Qbft.Event}
      (hrun : Run N P σ es τ) (he : N.Allowed P τ i e) :
      Run N P σ (es ++ [(i, e)]) (step τ i e)

section Step

variable {N : Network K} {P : WrappedQbftMessage → Prop} {σ τ : World F D} {i j : OperatorId}
  {e : Qbft.Event}

omit [LeaderFunction F] [QbftData D] in
theorem Allowed.mem_honest (h : N.Allowed P σ i e) : i ∈ N.honest := by
  cases e with
  | receive w => exact h.1
  | endRound => exact h

omit [LeaderFunction F] [QbftData D] in
theorem Allowed.admissible (h : N.Allowed P σ i e) : (σ i).Admissible N.ctx e := by
  cases e with
  | receive w =>
    rcases h.2 with ⟨hw, -⟩ | hw
    · exact Or.inl hw.validated
    · exact Or.inr hw
  | endRound => trivial

@[simp] theorem step_self : step σ i e i = (σ i).apply e := by simp [step]

theorem step_of_ne (h : j ≠ i) : step σ i e j = σ j := by simp [step, h]

theorem Run.append {es es' : List (OperatorId × Qbft.Event)} {υ : World F D}
    (h : N.Run P σ es τ) (h' : N.Run P τ es' υ) : N.Run P σ (es ++ es') υ := by
  induction h' with
  | nil => simpa using h
  | snoc hrun he ih =>
    rw [← List.append_assoc]
    exact ih.snoc he

end Step

/-! ## The instances of a run -/

structure Node (N : Network K) (i : OperatorId) (q : Qbft F D) : Prop where
  reachable : q.Reachable N.ctx
  operatorId_eq : q.config.operatorId = i
  committee_eq : q.config.committee = N.committee
  height_eq : q.instanceHeight = N.height
  identifier_eq : q.identifier = N.identifier
  round_eq : q.config.round = Round.default

section Node

variable {N : Network K} {P : WrappedQbftMessage → Prop} {σ τ : World F D} {i : OperatorId}
  {q : Qbft F D} {e : Qbft.Event} {es : List (OperatorId × Qbft.Event)}

theorem Node.transition (h : N.Node i q)
    (he : q.Admissible N.ctx e) : Qbft.Transition q e (q.apply e) :=
  he.transition (h.reachable.grounded)

theorem Node.apply (h : N.Node i q)
    (he : q.Admissible N.ctx e) : N.Node i (q.apply e) := by
  obtain ⟨hconfig, hid, hheight, -⟩ := (h.transition he).static
  refine ⟨h.reachable.step he, ?_, ?_, hheight ▸ h.height_eq, hid ▸ h.identifier_eq, ?_⟩
  · rw [hconfig]
    exact h.operatorId_eq
  · rw [hconfig]
    exact h.committee_eq
  · rw [hconfig]
    exact h.round_eq

theorem Started.node (h : N.Started σ) : ∀ i ∈ N.honest, N.Node i (σ i) := by
  intro i hi
  obtain ⟨config, startData, dataValidator, hid, hcommittee, hheight, hround, heq⟩ := h i hi
  obtain ⟨data, out, -, hnew⟩ := Qbft.exists_new config startData dataValidator N.identifier
  have hreach : Qbft.Reachable N.ctx (σ i) := by
    rw [heq]
    exact Qbft.Reachable.new config startData dataValidator N.identifier
  rw [hnew] at heq
  refine ⟨hreach, ?_, ?_, ?_, ?_, ?_⟩ <;> rw [heq]
  · exact hid
  · exact hcommittee
  · exact hheight
  · rfl
  · exact hround

theorem Run.node (hnode : ∀ i ∈ N.honest, N.Node i (σ i)) (h : N.Run P σ es τ) :
    ∀ i ∈ N.honest, N.Node i (τ i) := by
  induction h with
  | nil => exact hnode
  | @snoc es τ i e hrun he ih =>
    intro j hj
    by_cases hij : j = i
    · subst hij
      rw [step_self]
      exact (ih j hj).apply he.admissible
    · rw [step_of_ne hij]
      exact ih j hj

end Node

end Network

end Anchor
