import Mathlib

/-!
# Quorums and locked values

The general argument behind round-based voting with locks.  Members accept at
most one value in a round and commit only what they accepted.  A member that
leaves for a later round reports the value it last prepared; a value is accepted
in a later round only on the reports of a quorum that name no other value.  If
fewer than a third of the members are faulty, a quorum that committed a value
locks it for all later rounds, so no two quorums commit different values.
-/

namespace Locking

variable {α V : Type*} [DecidableEq α]

/-- Two quorums of a committee of `3f + 1` members share a member outside any
set of at most `f` faulty ones. -/
theorem exists_correct_mem_inter {committee faulty A B : Finset α} {f : ℕ}
    (hcard : committee.card = 3 * f + 1) (hfaulty : (committee ∩ faulty).card ≤ f)
    (hA : A ⊆ committee) (hB : B ⊆ committee)
    (hcardA : 2 * f + 1 ≤ A.card) (hcardB : 2 * f + 1 ≤ B.card) :
    ∃ a, a ∈ A ∧ a ∈ B ∧ a ∉ faulty := by
  have hunion : (A ∪ B).card ≤ 3 * f + 1 :=
    hcard ▸ Finset.card_le_card (Finset.union_subset hA hB)
  have hinter := Finset.card_union_add_card_inter A B
  have hlt : (committee ∩ faulty).card < (A ∩ B).card := by omega
  obtain ⟨a, ha, hnot⟩ := Finset.exists_mem_notMem_of_card_lt_card hlt
  obtain ⟨haA, haB⟩ := Finset.mem_inter.mp ha
  refine ⟨a, haA, haB, fun hf => hnot ?_⟩
  exact Finset.mem_inter.mpr ⟨hA haA, hf⟩

theorem exists_correct_mem {committee faulty A : Finset α} {f : ℕ}
    (hfaulty : (committee ∩ faulty).card ≤ f) (hA : A ⊆ committee) (hcardA : f + 1 ≤ A.card) :
    ∃ a ∈ A, a ∉ faulty := by
  have hlt : (committee ∩ faulty).card < A.card := by omega
  obtain ⟨a, ha, hnot⟩ := Finset.exists_mem_notMem_of_card_lt_card hlt
  exact ⟨a, ha, fun hf => hnot (Finset.mem_inter.mpr ⟨hA ha, hf⟩)⟩

/-- What the correct members of a committee did in one execution: the values
they accepted and committed in each round, and the reports with which they left
for a round.  A report names the round and the value last prepared, if any. -/
structure History (α V : Type*) [DecidableEq α] where
  committee : Finset α
  faulty : Finset α
  f : ℕ
  accepted : α → ℕ → V → Prop
  committed : α → ℕ → V → Prop
  reported : α → ℕ → Option (ℕ × V) → Prop
  card_committee : committee.card = 3 * f + 1
  card_faulty : (committee ∩ faulty).card ≤ f
  accepted_unique : ∀ a ∉ faulty, ∀ r v w, accepted a r v → accepted a r w → v = w
  accepted_of_committed : ∀ a ∉ faulty, ∀ r v, committed a r v → accepted a r v
  pos_of_committed : ∀ a ∉ faulty, ∀ r v, committed a r v → 0 < r
  /-- A value accepted after the first round rests on a quorum of reports, none
  of which names another value. -/
  justified : ∀ a ∉ faulty, ∀ r v, accepted a r v → 1 < r →
    ∃ Q ⊆ committee, 2 * f + 1 ≤ Q.card ∧
      ∀ b ∈ Q, b ∉ faulty → ∃ report, reported b r report ∧
        ∀ d w, report = some (d, w) → w = v
  /-- A member that committed reports a value it accepted since. -/
  locked : ∀ a ∉ faulty, ∀ r v r' report, committed a r v → reported a r' report → r < r' →
    ∃ d w, report = some (d, w) ∧ r ≤ d ∧ d < r' ∧ accepted a d w

namespace History

variable (H : History α V)

/-- A quorum whose correct members all committed `v` in round `r`. -/
def Certificate (r : ℕ) (v : V) : Prop :=
  ∃ Q ⊆ H.committee, 2 * H.f + 1 ≤ Q.card ∧ ∀ a ∈ Q, a ∉ H.faulty → H.committed a r v

variable {H}

theorem Certificate.exists_committed {r : ℕ} {v : V} (h : H.Certificate r v)
    {B : Finset α} (hB : B ⊆ H.committee) (hcard : 2 * H.f + 1 ≤ B.card) :
    ∃ a ∈ B, a ∉ H.faulty ∧ H.committed a r v := by
  obtain ⟨Q, hQ, hQcard, hall⟩ := h
  obtain ⟨a, haQ, haB, ha⟩ :=
    exists_correct_mem_inter H.card_committee H.card_faulty hQ hB hQcard hcard
  exact ⟨a, haB, ha, hall a haQ ha⟩

theorem Certificate.pos {r : ℕ} {v : V} (h : H.Certificate r v) : 0 < r := by
  obtain ⟨Q, hQ, hcard, hall⟩ := h
  obtain ⟨a, haQ, ha⟩ :=
    exists_correct_mem H.card_faulty hQ (show H.f + 1 ≤ Q.card by omega)
  exact H.pos_of_committed a ha r v (hall a haQ ha)

theorem Certificate.accepted_eq {r : ℕ} {v : V} (h : H.Certificate r v) {r' : ℕ} (hr : r < r')
    {a : α} (ha : a ∉ H.faulty) {w : V} (hacc : H.accepted a r' w) : w = v := by
  induction r' using Nat.strong_induction_on generalizing a w with
  | _ r' ih =>
    have hpos := h.pos
    obtain ⟨Q, hQ, hcard, hreports⟩ := H.justified a ha r' w hacc (by omega)
    obtain ⟨b, hbQ, hb, hcommitted⟩ := h.exists_committed hQ hcard
    obtain ⟨report, hreported, hsame⟩ := hreports b hbQ hb
    obtain ⟨d, u, hreport, hrd, hdr, hu⟩ := H.locked b hb r v r' report hcommitted hreported hr
    have huw : u = w := hsame d u hreport
    -- The lock is either the committed round itself or a round in between.
    rcases Nat.eq_or_lt_of_le hrd with rfl | hlt
    · have huv := H.accepted_unique b hb r u v hu (H.accepted_of_committed b hb r v hcommitted)
      exact huw.symm.trans huv
    · exact huw.symm.trans (ih d hdr hlt hb hu)

theorem Certificate.unique {r r' : ℕ} {v v' : V} (h : H.Certificate r v)
    (h' : H.Certificate r' v') : v = v' := by
  wlog hle : r ≤ r' generalizing r r' v v'
  · exact (this h' h (by omega)).symm
  obtain ⟨Q, hQ, hcard, hall⟩ := h'
  obtain ⟨a, haQ, ha, hcommitted⟩ := h.exists_committed hQ hcard
  have hacc' := H.accepted_of_committed a ha r' v' (hall a haQ ha)
  rcases Nat.eq_or_lt_of_le hle with rfl | hlt
  · exact H.accepted_unique a ha r v v' (H.accepted_of_committed a ha r v hcommitted) hacc'
  · exact (h.accepted_eq hlt ha hacc').symm

end History

end Locking
