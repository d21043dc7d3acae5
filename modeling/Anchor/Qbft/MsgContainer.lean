import Mathlib
import Anchor.Library.SortedMap
import Anchor.Qbft.Types

/-!
# Message containers

A container stores the messages of one type, per round, at most one from each
sender.  Counting stored messages therefore counts distinct senders; the lemmas
here turn each count the instance makes into a set of operators.
-/

namespace Anchor

namespace WrappedQbftMessage

/-- The first signer, which is the only one of every stored message. -/
def signer (m : WrappedQbftMessage) : OperatorId := m.signedMessage.operatorIds.toList.headD ⟨0⟩

end WrappedQbftMessage

/-- The messages of one type.  The maps of the source are total functions here. -/
structure MessageContainer where
  quorumSize : ℕ
  messages : Round → Option (List WrappedQbftMessage)
  sendersByRound : SortedMap Round (Finset OperatorId)

namespace MessageContainer

def new (quorumSize : ℕ) : MessageContainer := ⟨quorumSize, fun _ => none, SortedMap.empty⟩

def getMessagesForRound (c : MessageContainer) (round : Round) : List WrappedQbftMessage :=
  (c.messages round).getD []

def senders (c : MessageContainer) (round : Round) : Finset OperatorId :=
  (c.sendersByRound.get? round).getD ∅

def addMessage (c : MessageContainer) (round : Round) (sender : OperatorId)
    (msg : WrappedQbftMessage) : MessageContainer × Bool :=
  if sender ∈ c.senders round then (c, false)
  else
    ({ c with
        sendersByRound := c.sendersByRound.upsert round fun s => insert sender (s.getD ∅)
        messages := Function.update c.messages round
          (some (c.getMessagesForRound round ++ [msg])) }, true)

/-- A root carried by a quorum of the round's messages.  The source walks a hash
map; at most one root can have a quorum, so the order of the walk does not matter. -/
def hasQuorum (c : MessageContainer) (round : Round) : Option Hash256 :=
  (c.messages round).bind fun roundMessages =>
    (roundMessages.map fun m => m.qbftMessage.root).find? fun hash =>
      c.quorumSize ≤ roundMessages.countP fun m => m.qbftMessage.root = hash

def hasQuorumDisregardingRoot (c : MessageContainer) (round : Round) : Bool :=
  match c.messages round with
  | none => false
  | some msgs => decide (c.quorumSize ≤ msgs.length)

/-- The least round above `round` with a message, if the rounds above `round`
have messages from at least `partialQuorum` operators together. -/
def lowestPartialQuorumAboveRound (c : MessageContainer) (round : Round) (partialQuorum : ℕ) :
    Option Round :=
  round.next.bind fun startRound =>
    let future := c.sendersByRound.range startRound
    let allOperators := future.foldl (fun acc e => acc ∪ e.2) ∅
    if partialQuorum ≤ allOperators.card then future.head?.map Prod.fst else none

def getQuorumOfMessages (c : MessageContainer) (round : Round) : List WrappedQbftMessage :=
  match c.hasQuorum round with
  | none => []
  | some hash => (c.getMessagesForRound round).filter fun m => m.qbftMessage.root = hash

/-! ## Well-formed containers -/

/-- Every stored message has one signer, no two of a round the same one, and the
recorded senders are the signers. -/
structure WellFormed (c : MessageContainer) : Prop where
  senders_eq : ∀ r, c.senders r = ((c.getMessagesForRound r).map WrappedQbftMessage.signer).toFinset
  nodup : ∀ r, ((c.getMessagesForRound r).map WrappedQbftMessage.signer).Nodup
  operatorIds_eq : ∀ r, ∀ m ∈ c.getMessagesForRound r,
    m.signedMessage.operatorIds.toList = [m.signer]

theorem wellFormed_new (quorumSize : ℕ) : (new quorumSize).WellFormed := by
  constructor <;> intro r <;> simp [new, senders, getMessagesForRound]

@[simp] theorem getMessagesForRound_new (quorumSize : ℕ) (r : Round) :
    (new quorumSize).getMessagesForRound r = [] := rfl

section AddMessage

variable {c c' : MessageContainer} {round : Round} {sender : OperatorId} {msg : WrappedQbftMessage}

theorem addMessage_false (h : c.addMessage round sender msg = (c', false)) : c' = c := by
  unfold addMessage at h
  split at h
  · cases h
    rfl
  · cases h

theorem mem_senders_of_addMessage_false (h : c.addMessage round sender msg = (c', false)) :
    sender ∈ c.senders round := by
  unfold addMessage at h
  split at h
  · assumption
  · cases h

theorem quorumSize_of_addMessage {b : Bool} (h : c.addMessage round sender msg = (c', b)) :
    c'.quorumSize = c.quorumSize := by
  unfold addMessage at h
  split at h <;> cases h <;> rfl

theorem notMem_senders_of_addMessage (h : c.addMessage round sender msg = (c', true)) :
    sender ∉ c.senders round := by
  unfold addMessage at h
  split at h
  · cases h
  · assumption

theorem exists_addMessage (msg : WrappedQbftMessage) (h : sender ∉ c.senders round) :
    ∃ c', c.addMessage round sender msg = (c', true) := by
  unfold addMessage
  rw [if_neg h]
  exact ⟨_, rfl⟩

section

variable (h : c.addMessage round sender msg = (c', true))
include h

theorem messages_of_addMessage :
    c'.messages round = some (c.getMessagesForRound round ++ [msg]) := by
  unfold addMessage at h
  split at h <;> cases h
  simp

theorem getMessagesForRound_of_addMessage :
    c'.getMessagesForRound round = c.getMessagesForRound round ++ [msg] := by
  rw [getMessagesForRound, messages_of_addMessage h, Option.getD_some]

theorem getMessagesForRound_of_addMessage_ne
    {r : Round} (hr : r ≠ round) : c'.getMessagesForRound r = c.getMessagesForRound r := by
  unfold addMessage at h
  split at h <;> cases h
  simp [getMessagesForRound, hr]

theorem senders_of_addMessage :
    c'.senders round = insert sender (c.senders round) := by
  unfold addMessage at h
  split at h <;> cases h
  simp [senders]

theorem senders_of_addMessage_ne {r : Round} (hr : r ≠ round) : c'.senders r = c.senders r := by
  unfold addMessage at h
  split at h <;> cases h
  simp [senders, SortedMap.get?_upsert_ne _ hr]

end

theorem mem_getMessagesForRound_of_addMessage {b : Bool}
    (h : c.addMessage round sender msg = (c', b)) {r : Round} {m : WrappedQbftMessage}
    (hm : m ∈ c'.getMessagesForRound r) :
    m ∈ c.getMessagesForRound r ∨ r = round ∧ m = msg := by
  cases b with
  | false => exact Or.inl (addMessage_false h ▸ hm)
  | true =>
    by_cases hr : r = round
    · subst hr
      rw [getMessagesForRound_of_addMessage h] at hm
      rcases List.mem_append.mp hm with hm | hm
      · exact Or.inl hm
      · exact Or.inr ⟨rfl, List.mem_singleton.mp hm⟩
    · exact Or.inl (getMessagesForRound_of_addMessage_ne h hr ▸ hm)

theorem sublist_getMessagesForRound_of_addMessage {b : Bool}
    (h : c.addMessage round sender msg = (c', b)) (r : Round) :
    (c.getMessagesForRound r).Sublist (c'.getMessagesForRound r) := by
  cases b with
  | false => rw [addMessage_false h]
  | true =>
    by_cases hr : r = round
    · subst hr
      rw [getMessagesForRound_of_addMessage h]
      exact List.sublist_append_left _ _
    · rw [getMessagesForRound_of_addMessage_ne h hr]

theorem WellFormed.addMessage (hc : c.WellFormed) {b : Bool}
    (h : c.addMessage round sender msg = (c', b))
    (hsender : msg.signedMessage.operatorIds.toList = [sender]) : c'.WellFormed := by
  cases b with
  | false => exact addMessage_false h ▸ hc
  | true =>
    have hsigner : msg.signer = sender := by simp [WrappedQbftMessage.signer, hsender]
    have hnew := notMem_senders_of_addMessage h
    rw [hc.senders_eq, List.mem_toFinset] at hnew
    refine ⟨fun r => ?_, fun r => ?_, fun r m hm => ?_⟩
    · by_cases hr : r = round
      · subst hr
        rw [senders_of_addMessage h, getMessagesForRound_of_addMessage h, hc.senders_eq]
        ext a
        simp [hsigner]
      · rw [senders_of_addMessage_ne h hr, getMessagesForRound_of_addMessage_ne h hr,
          hc.senders_eq]
    · by_cases hr : r = round
      · subst hr
        rw [getMessagesForRound_of_addMessage h, List.map_append, List.nodup_append]
        refine ⟨hc.nodup r, by simp, ?_⟩
        intro a ha b hb
        have hb : b = sender := by simpa [hsigner] using hb
        rintro rfl
        exact hnew (hb ▸ ha)
      · rw [getMessagesForRound_of_addMessage_ne h hr]
        exact hc.nodup r
    · rcases mem_getMessagesForRound_of_addMessage h hm with hm | ⟨-, rfl⟩
      · exact hc.operatorIds_eq r m hm
      · rw [hsigner, hsender]

end AddMessage

/-! ## Quorums as sets of operators -/

variable {c : MessageContainer}

def signersWhere (c : MessageContainer) (r : Round) (p : WrappedQbftMessage → Bool) :
    Finset OperatorId :=
  (((c.getMessagesForRound r).filter p).map WrappedQbftMessage.signer).toFinset

theorem WellFormed.card_signersWhere (hc : c.WellFormed) (r : Round)
    (p : WrappedQbftMessage → Bool) :
    (c.signersWhere r p).card = ((c.getMessagesForRound r).filter p).length := by
  rw [signersWhere, List.toFinset_card_of_nodup, List.length_map]
  exact (hc.nodup r).sublist (List.filter_sublist.map _)

variable {r : Round}

theorem mem_signersWhere {p : WrappedQbftMessage → Bool} {a : OperatorId} :
    a ∈ c.signersWhere r p ↔ ∃ m ∈ c.getMessagesForRound r, p m = true ∧ m.signer = a := by
  simp [signersWhere, and_assoc]

theorem le_length_filter_of_hasQuorum {v : Hash256} (h : c.hasQuorum r = some v) :
    c.quorumSize ≤
      ((c.getMessagesForRound r).filter fun m => m.qbftMessage.root = v).length := by
  unfold hasQuorum at h
  cases hm : c.messages r with
  | none => simp [hm] at h
  | some ms =>
    rw [hm, Option.bind_some] at h
    have hcount := List.find?_some h
    rw [decide_eq_true_eq, List.countP_eq_length_filter] at hcount
    simpa [getMessagesForRound, hm] using hcount

theorem exists_hasQuorum {v : Hash256} (hpos : 0 < c.quorumSize) (h : c.quorumSize ≤
      ((c.getMessagesForRound r).filter fun m => m.qbftMessage.root = v).length) :
    ∃ w, c.hasQuorum r = some w := by
  obtain ⟨m, hm⟩ := List.exists_mem_of_length_pos (hpos.trans_le h)
  obtain ⟨hm, hroot⟩ := List.mem_filter.mp hm
  unfold getMessagesForRound at h hm
  unfold hasQuorum
  cases hms : c.messages r with
  | none => simp [hms] at hm
  | some ms =>
    rw [hms, Option.getD_some] at h hm
    rw [Option.bind_some, ← Option.isSome_iff_exists, List.find?_isSome]
    refine ⟨v, List.mem_map.mpr ⟨m, hm, decide_eq_true_eq.mp hroot⟩, ?_⟩
    rw [decide_eq_true_eq, List.countP_eq_length_filter]
    exact h

theorem WellFormed.quorumSize_le_card (hc : c.WellFormed) {v : Hash256}
    (h : c.hasQuorum r = some v) :
    c.quorumSize ≤ (c.signersWhere r fun m => m.qbftMessage.root = v).card := by
  rw [hc.card_signersWhere]
  exact le_length_filter_of_hasQuorum h

theorem hasQuorumDisregardingRoot_iff (hpos : 0 < c.quorumSize) :
    c.hasQuorumDisregardingRoot r = true ↔ c.quorumSize ≤ (c.getMessagesForRound r).length := by
  unfold hasQuorumDisregardingRoot getMessagesForRound
  cases c.messages r with
  | none =>
    simp only [Option.getD_none, List.length_nil, Bool.false_eq_true, false_iff]
    omega
  | some ms => simp

theorem hasQuorumDisregardingRoot_of_addMessage_ne {c' : MessageContainer} {s : OperatorId}
    {w : WrappedQbftMessage} {b : Bool} {r r' : Round} (h : c.addMessage r s w = (c', b))
    (hne : r' ≠ r) : c'.hasQuorumDisregardingRoot r' = c.hasQuorumDisregardingRoot r' := by
  unfold addMessage at h
  split at h
  · cases h
    rfl
  · cases h
    simp [hasQuorumDisregardingRoot, Function.update_of_ne hne]

theorem mem_foldl_union {es : List (Round × Finset OperatorId)} {acc : Finset OperatorId}
    {a : OperatorId} (h : a ∈ es.foldl (fun acc e => acc ∪ e.2) acc) :
    a ∈ acc ∨ ∃ e ∈ es, a ∈ e.2 := by
  induction es generalizing acc with
  | nil => exact Or.inl h
  | cons e es ih =>
    rcases ih h with hacc | ⟨e', he', ha⟩
    · rcases Finset.mem_union.mp hacc with hacc | he
      · exact Or.inl hacc
      · exact Or.inr ⟨e, by simp, he⟩
    · exact Or.inr ⟨e', List.mem_cons_of_mem _ he', ha⟩

/-- The round of a partial quorum lies above, and that many operators have a
message for it or a later round. -/
theorem exists_of_lowestPartialQuorumAboveRound {round r : Round} {partialQuorum : ℕ}
    (h : c.lowestPartialQuorumAboveRound round partialQuorum = some r) :
    round < r ∧ ∃ A : Finset OperatorId, partialQuorum ≤ A.card ∧
      ∀ a ∈ A, ∃ r', r ≤ r' ∧ a ∈ c.senders r' := by
  unfold lowestPartialQuorumAboveRound at h
  cases hnext : round.next with
  | none => simp [hnext] at h
  | some startRound =>
    simp only [hnext, Option.bind_some] at h
    split at h
    · rename_i hcard
      obtain ⟨e, hhead, rfl⟩ := Option.map_eq_some_iff.mp h
      obtain ⟨es, hes⟩ := List.head?_eq_some_iff.mp hhead
      have he : e ∈ c.sendersByRound.range startRound := by simp [hes]
      have hstart := (SortedMap.get?_of_mem_range he).2
      have hround : round < startRound := by
        rw [Round.lt_def, Round.get_of_next hnext]
        omega
      refine ⟨hround.trans_le hstart, _, hcard, ?_⟩
      intro a ha
      rcases mem_foldl_union ha with ha | ⟨d, hd, ha⟩
      · simp at ha
      · refine ⟨d.1, SortedMap.head_range_le hes hd, ?_⟩
        rw [senders, (SortedMap.get?_of_mem_range hd).1]
        exact ha
    · cases h

end MessageContainer

end Anchor
