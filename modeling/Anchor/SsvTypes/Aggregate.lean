import Mathlib
import Anchor.Library.KeySort
import Anchor.SsvTypes.Message

/-!
# Aggregated messages

Aggregating signed messages collects their signers around the first message.  It
fails only if there are too many of them.  Every signature stays with its signer.
-/

namespace Anchor

open Ssz

namespace SignedSSVMessage

variable {m a other : SignedSSVMessage} {others : List SignedSSVMessage}

def signersOf (ms : List SignedSSVMessage) : List OperatorId :=
  ms.flatMap fun m => m.operatorIds.toList

structure Extends (m a : SignedSSVMessage) : Prop where
  ssvMessage_eq : a.ssvMessage = m.ssvMessage
  fullData_eq : a.fullData = m.fullData

theorem extend_eq_ok (h : m.extend other = .ok a) :
    Extends m a ∧ other.operatorIds.toList.length = other.signatures.toList.length ∧
      a.signatures.toList = m.signatures.toList ++ other.signatures.toList ∧
      a.operatorIds.toList = m.operatorIds.toList ++ other.operatorIds.toList := by
  unfold extend at h
  split_ifs at h with hlength
  split at h
  · cases h
  rename_i sigs hsigs
  split at h
  · cases h
  rename_i ids hids
  cases h
  exact ⟨⟨rfl, rfl⟩, not_not.mp hlength, VariableList.toList_of_new? hsigs,
    VariableList.toList_of_new? hids⟩

theorem exists_extend (hlength : other.operatorIds.toList.length = other.signatures.toList.length)
    (hsigs : m.signatures.toList.length + other.signatures.toList.length ≤ 13)
    (hids : m.operatorIds.toList.length + other.operatorIds.toList.length ≤ 13) :
    ∃ a, m.extend other = .ok a := by
  rw [← List.length_append] at hsigs hids
  unfold extend
  rw [if_neg (not_not.mpr hlength), VariableList.new?, dif_pos hsigs, VariableList.new?,
    dif_pos hids]
  exact ⟨_, rfl⟩

theorem foldlM_extend_eq_ok (h : others.foldlM extend m = .ok a)
    (hm : m.operatorIds.toList.length = m.signatures.toList.length) :
    Extends m a ∧ a.operatorIds.toList = m.operatorIds.toList ++ signersOf others ∧
      a.operatorIds.toList.length = a.signatures.toList.length := by
  induction others generalizing m with
  | nil =>
    cases h
    exact ⟨⟨rfl, rfl⟩, by simp [signersOf], hm⟩
  | cons other others ih =>
    rw [List.foldlM_cons] at h
    cases hnext : m.extend other with
    | error e =>
      rw [hnext] at h
      cases h
    | ok m' =>
      rw [hnext] at h
      obtain ⟨hext, hlength, hsigs, hids⟩ := extend_eq_ok hnext
      have hm' : m'.operatorIds.toList.length = m'.signatures.toList.length := by
        rw [hsigs, hids, List.length_append, List.length_append, hm, hlength]
      obtain ⟨hext', hids', hlength'⟩ := ih h hm'
      refine ⟨⟨hext'.ssvMessage_eq.trans hext.ssvMessage_eq,
        hext'.fullData_eq.trans hext.fullData_eq⟩, ?_, hlength'⟩
      rw [hids', hids, List.append_assoc]
      rfl

theorem exists_foldlM_extend
    (hothers : ∀ o ∈ others, o.operatorIds.toList.length = o.signatures.toList.length)
    (hm : m.operatorIds.toList.length = m.signatures.toList.length)
    (hbound : m.operatorIds.toList.length + (signersOf others).length ≤ 13) :
    ∃ a, others.foldlM extend m = .ok a := by
  induction others generalizing m with
  | nil => exact ⟨m, rfl⟩
  | cons other others ih =>
    have hother := hothers other (by simp)
    have hsplit : (signersOf (other :: others)).length =
        other.operatorIds.toList.length + (signersOf others).length := by
      simp [signersOf]
    obtain ⟨m', hm'⟩ := exists_extend (m := m) hother (by omega) (by omega)
    obtain ⟨-, -, hsigs, hids⟩ := extend_eq_ok hm'
    rw [List.foldlM_cons, hm']
    apply ih (fun o ho => hothers o (List.mem_cons_of_mem _ ho))
    · rw [hsigs, hids, List.length_append, List.length_append, hm, hother]
    · rw [hids, List.length_append]
      omega

theorem aggregate_eq_ok (h : m.aggregate others = .ok a)
    (hm : m.operatorIds.toList.length = m.signatures.toList.length) :
    Extends m a ∧ a.operatorIds.toList.Perm (m.operatorIds.toList ++ signersOf others) := by
  unfold aggregate at h
  cases hall : others.foldlM extend m with
  | error e =>
    rw [hall] at h
    cases h
  | ok all =>
    obtain ⟨hext, hids, hlength⟩ := foldlM_extend_eq_ok hall hm
    rw [hall] at h
    simp only [bind, Except.bind] at h
    split at h
    · cases h
    rename_i sigs hsigs
    split at h
    · cases h
    rename_i ids hids'
    cases h
    refine ⟨⟨hext.ssvMessage_eq, hext.fullData_eq⟩, ?_⟩
    rw [← hids]
    have hperm := ((all.signatures.toList.zip all.operatorIds.toList).perm_insertionSort
      fun x y => x.2 ≤ y.2).map Prod.snd
    rw [List.map_snd_zip hlength.le] at hperm
    rw [VariableList.toList_of_new? hids']
    exact hperm

def pairs (m : SignedSSVMessage) : List (VariableList UInt8 256 × OperatorId) :=
  m.signatures.toList.zip m.operatorIds.toList

theorem map_snd_pairs (h : m.operatorIds.toList.length = m.signatures.toList.length) :
    m.pairs.map Prod.snd = m.operatorIds.toList :=
  List.map_snd_zip h.le

theorem map_fst_pairs (h : m.operatorIds.toList.length = m.signatures.toList.length) :
    m.pairs.map Prod.fst = m.signatures.toList :=
  List.map_fst_zip h.ge

theorem pairs_foldlM_extend (h : others.foldlM extend m = .ok a)
    (hm : m.operatorIds.toList.length = m.signatures.toList.length) :
    a.pairs = m.pairs ++ others.flatMap pairs := by
  induction others generalizing m with
  | nil =>
    cases h
    simp
  | cons other others ih =>
    rw [List.foldlM_cons] at h
    cases hnext : m.extend other with
    | error e =>
      rw [hnext] at h
      cases h
    | ok m' =>
      rw [hnext] at h
      obtain ⟨-, hlength, hsigs, hids⟩ := extend_eq_ok hnext
      have hm' : m'.operatorIds.toList.length = m'.signatures.toList.length := by
        rw [hsigs, hids, List.length_append, List.length_append, hm, hlength]
      have hpairs : m'.pairs = m.pairs ++ other.pairs := by
        rw [pairs, hsigs, hids, List.zip_append hm.symm]
        rfl
      rw [ih h hm', hpairs, List.flatMap_cons, List.append_assoc]

theorem pairs_aggregate (h : m.aggregate others = .ok a)
    (hm : m.operatorIds.toList.length = m.signatures.toList.length) :
    a.operatorIds.toList.length = a.signatures.toList.length ∧
      a.pairs = (m.pairs ++ others.flatMap pairs).insertionSort fun x y => x.2 ≤ y.2 := by
  unfold aggregate at h
  cases hall : others.foldlM extend m with
  | error e =>
    rw [hall] at h
    cases h
  | ok all =>
    rw [← pairs_foldlM_extend hall hm]
    rw [hall] at h
    simp only [bind, Except.bind] at h
    split at h
    · cases h
    rename_i sigs hsigs
    split at h
    · cases h
    rename_i ids hids
    cases h
    rw [pairs]
    refine ⟨?_, ?_⟩
    · simp [VariableList.toList_of_new? hsigs, VariableList.toList_of_new? hids]
    · exact (List.zip_of_prod (VariableList.toList_of_new? hsigs).symm
        (VariableList.toList_of_new? hids).symm).symm

theorem exists_aggregate
    (hothers : ∀ o ∈ others, o.operatorIds.toList.length = o.signatures.toList.length)
    (hm : m.operatorIds.toList.length = m.signatures.toList.length)
    (hbound : m.operatorIds.toList.length + (signersOf others).length ≤ 13) :
    ∃ a, m.aggregate others = .ok a := by
  obtain ⟨all, hall⟩ := exists_foldlM_extend hothers hm hbound
  obtain ⟨-, hids, hlength⟩ := foldlM_extend_eq_ok hall hm
  have hpairs : ((all.signatures.toList.zip all.operatorIds.toList).insertionSort
      fun x y => x.2 ≤ y.2).length ≤ 13 := by
    rw [List.length_insertionSort, List.length_zip, hids, List.length_append]
    omega
  unfold aggregate
  rw [hall]
  simp only [bind, Except.bind, VariableList.new?, List.length_map, hpairs, dif_pos]
  exact ⟨_, rfl⟩

end SignedSSVMessage

end Anchor
