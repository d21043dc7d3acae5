import Mathlib
import Anchor.Library.KeySort
import Anchor.SignatureCollector.BlsLagrange
import Anchor.SsvTypes.MsgId

/-!
# Operators, clusters, validators and shares

A cluster is identified by a digest of its owner and its operators.  The type of that
digest is left open.
-/

namespace Anchor

open Ssz

abbrev Address := FixedBytes 20

abbrev Graffiti := FixedBytes 32

namespace IndexSet

variable {α : Type*} [DecidableEq α]

/-- `IndexSet::from_iter`: the first occurrences, in order. -/
def fromIter (l : List α) : IndexSet α :=
  ⟨l.reverse.dedup.reverse, List.nodup_reverse.mpr (List.nodup_dedup _)⟩

@[simp] theorem mem_toList_fromIter {l : List α} {a : α} : a ∈ (fromIter l).toList ↔ a ∈ l := by
  simp [fromIter]

theorem toList_fromIter {l : List α} (h : l.Nodup) : (fromIter l).toList = l := by
  change l.reverse.dedup.reverse = l
  rw [(List.nodup_reverse.mpr h).dedup, List.reverse_reverse]

end IndexSet

structure Operator where
  id : OperatorId
  rsaPubkey : Bytes
  owner : Address
deriving DecidableEq

structure Cluster (C : Type) where
  clusterId : C
  owner : Address
  feeRecipient : Address
  liquidated : Bool
  clusterMembers : IndexSet OperatorId

def Cluster.committeeId {C : Type} (sha256 : Bytes → Hash256) (cluster : Cluster C) : CommitteeId :=
  CommitteeId.ofVec sha256 cluster.clusterMembers.toList

structure ClusterMember (C : Type) where
  clusterId : C
  operatorId : OperatorId
deriving DecidableEq

structure ValidatorMetadata (C : Type) where
  publicKey : PublicKeyBytes
  clusterId : C
  index : Option UInt64
  graffiti : Graffiti
deriving DecidableEq

structure Share (C : Type) where
  validatorPubkey : PublicKeyBytes
  operatorId : OperatorId
  clusterId : C
  sharePubkey : PublicKeyBytes
  encryptedPrivateKey : FixedBytes 256
deriving DecidableEq

inductive ShareValidationError where
  | invalidCommitteeSize (size : ℕ)
  | invalidOperatorId (id : UInt64)
  | publicKeys
deriving DecidableEq

/-- `KeyId::try_from` for every share. -/
def keyIds : List (OperatorId × PublicKeyBytes) →
    Except ShareValidationError (List (BlsLagrange.KeyId × PublicKeyBytes))
  | [] => .ok []
  | (operatorId, pubkey) :: shares =>
    match BlsLagrange.KeyId.tryFrom operatorId.val with
    | .error _ => .error (.invalidOperatorId operatorId.val)
    | .ok id => (keyIds shares).map ((id, pubkey) :: ·)

/-- The shares are those of one polynomial, as `bls_lagrange` checks it in the order of the
operators' ids. -/
def validateSharePublicKeys
    (interpolates : PublicKeyBytes → List (BlsLagrange.KeyId × PublicKeyBytes) → ℕ → Bool)
    (validatorPubkey : PublicKeyBytes) (shares : List (OperatorId × PublicKeyBytes)) :
    Except ShareValidationError Unit :=
  if !isValidCommitteeSize shares.length then .error (.invalidCommitteeSize shares.length)
  else
    match keyIds shares with
    | .error e => .error e
    | .ok ids =>
      if interpolates validatorPubkey (ids.insertionSort fun a b => a.1.num ≤ b.1.num)
        (quorumSize shares.length)
      then .ok ()
      else .error .publicKeys

theorem CommitteeId.ofVec_eq_of_perm (sha256 : Bytes → Hash256) {ids ids' : List OperatorId}
    (h : ids.Perm ids') : CommitteeId.ofVec sha256 ids = CommitteeId.ofVec sha256 ids' := by
  rw [ofVec, ofVec, KeySort.insertionSort_le_eq_of_perm h]

end Anchor
