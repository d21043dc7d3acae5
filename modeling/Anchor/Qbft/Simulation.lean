import Mathlib
import Anchor.Qbft.Run

/-!
# Executing runs of one instance

What a run of an instance may do next is decidable, so a run can be computed from
a script.  The sample committee has four members, votes on eight-byte values, and
signs with a stand-in for RSA: the key and a checksum of the message.
-/

namespace Anchor

open Ssz

namespace Qbft

inductive Action where
  /-- Hand back the message with the given index in the log. -/
  | loopback (index : ℕ)
  | deliver (w : WrappedQbftMessage)
  | timeout

variable {K F D : Type}

def signedBy (q : Qbft F D) (sign : OperatorId → Bytes → VariableList UInt8 256) (index : ℕ) :
    Option WrappedQbftMessage :=
  match q.sent[index]? with
  | none => none
  | some u =>
    match u.sign q.config.operatorId
        (sign q.config.operatorId u.unsignedMessage.ssvMessage.asSszBytes) with
    | .error _ => none
    | .ok w => some w

theorem loopback_of_signedBy {q : Qbft F D} {sign : OperatorId → Bytes → VariableList UInt8 256}
    {index : ℕ} {w : WrappedQbftMessage} (h : q.signedBy sign index = some w) : q.Loopback w := by
  unfold signedBy at h
  split at h
  · cases h
  · rename_i u hu
    split at h
    · cases h
    · rename_i w' hsign
      cases h
      exact ⟨u, List.mem_of_getElem? hu, _, hsign⟩

section Simulate

variable (ctx : ValidationContext K) (sign : OperatorId → Bytes → VariableList UInt8 256)

def eventOf (q : Qbft F D) : Action → Option Event
  | .loopback index => (q.signedBy sign index).map .receive
  | .deliver w => if ctx.Validated w then some (.receive w) else none
  | .timeout => some .endRound

variable [LeaderFunction F] [QbftData D]

def simulate : Qbft F D → List Action → Option (Qbft F D)
  | q, [] => some q
  | q, a :: script =>
    match q.eventOf ctx sign a with
    | none => none
    | some e => simulate (q.apply e) script

variable {ctx sign} {q q' : Qbft F D}

omit [LeaderFunction F] [QbftData D] in
theorem admissible_of_eventOf {a : Action} {e : Event} (h : q.eventOf ctx sign a = some e) :
    q.Admissible ctx e := by
  cases a with
  | loopback index =>
    obtain ⟨w, hw, rfl⟩ := Option.map_eq_some_iff.mp h
    exact Or.inr (loopback_of_signedBy hw)
  | deliver w =>
    simp only [eventOf] at h
    split_ifs at h with hw
    cases h
    exact Or.inl hw
  | timeout =>
    cases h
    trivial

theorem reachable_of_simulate {script : List Action} (hq : Reachable ctx q)
    (h : simulate ctx sign q script = some q') : Reachable ctx q' := by
  induction script generalizing q with
  | nil =>
    cases h
    exact hq
  | cons a script ih =>
    simp only [simulate] at h
    split at h
    · cases h
    · rename_i e hevent
      exact ih (hq.step (admissible_of_eventOf hevent)) h

theorem static_of_simulate {script : List Action} (hq : Reachable ctx q)
    (h : simulate ctx sign q script = some q') :
    q'.startData = q.startData ∧ q'.dataValidator = q.dataValidator := by
  induction script generalizing q with
  | nil =>
    cases h
    exact ⟨rfl, rfl⟩
  | cons a script ih =>
    simp only [simulate] at h
    split at h
    · cases h
    · rename_i e hevent
      have he := admissible_of_eventOf hevent
      obtain ⟨-, -, -, hstart, -, hvalidator⟩ := (he.transition hq.grounded).static
      obtain ⟨hstart', hvalidator'⟩ := ih (hq.step he) h
      exact ⟨hstart'.trans hstart, hvalidator'.trans hvalidator⟩

theorem exists_reachable (Q : Qbft F D → Prop) {script : List Action} (hq : Reachable ctx q)
    (h : ∃ q' ∈ simulate ctx sign q script, Q q') : ∃ q', Reachable ctx q' ∧ Q q' := by
  obtain ⟨q', hsim, hQ⟩ := h
  exact ⟨q', reachable_of_simulate hq hsim, hQ⟩

end Simulate

end Qbft

/-! ## A sample committee -/

namespace Sample

structure Vote where
  value : UInt64
deriving DecidableEq

def hashData (bs : Bytes) : Hash256 := ⟨(bs ++ List.replicate 32 0).take 32, by simp⟩

instance : QbftData Vote where
  asSszBytes v := encodeU64 v.value
  fromSszBytes bs := (decodeU64 bs).map Vote.mk
  hash v := hashData (encodeU64 v.value)

theorem lawful_vote : QbftData.Lawful Vote hashData where
  fromSszBytes_asSszBytes v := by simp [QbftData.asSszBytes, QbftData.fromSszBytes]
  asSszBytes_of_fromSszBytes {bs v} h := by
    obtain ⟨n, hn, rfl⟩ := Option.map_eq_some_iff.mp h
    exact encodeU64_of_decodeU64 hn
  fromSszBytes_nil := rfl
  hash_eq _ := rfl

def sign (operatorId : OperatorId) (msg : Bytes) : VariableList UInt8 256 :=
  ⟨leBytes 8 operatorId.val.toNat ++ leBytes 8 (ofLe msg % 2305843009213693951) ++
    List.replicate 240 0, by
    rw [List.length_append, List.length_append, length_leBytes, length_leBytes,
      List.length_replicate]⟩

def crypto : Crypto OperatorId where
  hashData := hashData
  verify key msg signature := signature.take 16 = (sign key msg).toList.take 16

theorem verify_sign (key : OperatorId) (msg : Bytes) :
    crypto.verify key msg (sign key msg).toList = true := by
  simp [crypto]

def members : IndexSet OperatorId := ⟨[⟨1⟩, ⟨2⟩, ⟨3⟩, ⟨4⟩], by decide⟩

theorem first_mem : (⟨1⟩ : OperatorId) ∈ members.toList := by
  decide

def ctx : ValidationContext OperatorId where
  crypto := crypto
  committeeMembers := members
  operatorPubKeys operatorId := if operatorId ∈ members.toList then some operatorId else none

def identifier : MessageId := ⟨List.replicate 56 0, by simp⟩

/-- The instance of height 0, in which operator `r` leads round `r`. -/
def config (operatorId : OperatorId) (h : operatorId ∈ members.toList) :
    Config DefaultLeaderFunction where
  operatorId := operatorId
  instanceHeight := 0
  round := Round.default
  committeeMembers := members
  maxRounds := 12
  leaderFn := ⟨32, by decide, false⟩
  operatorId_mem := h
  isValidCommitteeSize_len := by decide
  maxRounds_ne_zero := by decide
  round_le := by decide

def instanceOf (operatorId : OperatorId) (h : operatorId ∈ members.toList) :
    Qbft DefaultLeaderFunction Vote :=
  Qbft.new (config operatorId h) ⟨operatorId.val⟩ (fun _ _ => true) identifier

theorem reachable_instanceOf {operatorId : OperatorId} (h : operatorId ∈ members.toList) :
    Qbft.Reachable ctx (instanceOf operatorId h) :=
  Qbft.Reachable.new _ _ _ _

def message (t : QbftMessageType) (round : UInt64) (root : Hash256) : QbftMessage where
  qbftMessageType := t
  height := 0
  round := round
  identifier := identifier.toVariableList
  root := root
  dataRound := 0
  roundChangeJustification := VariableList.empty
  prepareJustification := VariableList.empty

def signed (operatorId : OperatorId) (msg : QbftMessage) : WrappedQbftMessage :=
  ⟨⟨⟨[sign operatorId (SSVMessage.consensus identifier msg).asSszBytes], by simp⟩,
    ⟨[operatorId], SignedSSVMessage.length_singleton_le operatorId⟩,
    SSVMessage.consensus identifier msg, VariableList.empty⟩, msg⟩

/-- What operator 1, who leads the first round, proposes. -/
def firstProposal (fullData : VariableList UInt8 ssvMessageFullDataLen) : WrappedQbftMessage :=
  let w := signed ⟨1⟩ (message .proposal 1 (hashData fullData.toList))
  ⟨{ w.signedMessage with fullData }, w.qbftMessage⟩

theorem second_mem : (⟨2⟩ : OperatorId) ∈ members.toList := by
  decide

theorem exists_reachable_of_firstProposal {D : Type} [QbftData D] (startData value : D)
    (dataValidator : D → D → Bool) (fullData : VariableList UInt8 ssvMessageFullDataLen)
    (h : ((Qbft.new (config ⟨2⟩ second_mem) startData dataValidator identifier).simulate ctx sign
      [.deliver (firstProposal fullData)]).bind (·.data (hashData fullData.toList)) =
        some value) :
    ∃ q : Qbft DefaultLeaderFunction D, Qbft.Reachable ctx q ∧ q.startData = startData ∧
      q.dataValidator = dataValidator ∧ q.data (hashData fullData.toList) = some value := by
  obtain ⟨q, hq, hvalue⟩ := Option.bind_eq_some_iff.mp h
  have hnew : Qbft.Reachable ctx (Qbft.new (config ⟨2⟩ second_mem) startData dataValidator
    identifier) := .new _ _ _ _
  obtain ⟨hstart, hvalidator⟩ := Qbft.static_of_simulate hnew hq
  obtain ⟨data, out, -, heq⟩ := Qbft.exists_new (config ⟨2⟩ second_mem) startData dataValidator
    identifier
  rw [heq] at hstart hvalidator
  exact ⟨q, Qbft.reachable_of_simulate hnew hq, hstart, hvalidator, hvalue⟩

def second : Round := Round.ofU64 2 (by decide)

def secondRound (operatorId : OperatorId) : WrappedQbftMessage :=
  signed operatorId (message .roundChange 2 Hash256.default)

end Sample

end Anchor
