import Mathlib
import Anchor.Library.Machine
import Anchor.SignatureCollector.Basic

/-!
# Batches of a committee

The partial signatures of a committee's validators are gathered until there are as
many as asked for, and then sent in one packet.  Peers accept one post-consensus
packet of a committee and slot, so its batch leaves a mark behind when it is taken;
the mark stays until the slot is stale, and by then no call starts a batch for it.
-/

namespace Anchor

inductive CommitteeBatchKey where
  | committeePostConsensus (slot : ℕ) (committeeId : CommitteeId)
  | decidedValue (baseHash : Hash256) (committeeId : CommitteeId)
deriving DecidableEq

/-- `none` marks a batch that has been taken. -/
structure CommitteePartialSignatureBatch where
  batchedValidatorPartialSignatures : Option (List PartialSignatureMessage)
  forSlot : ℕ

structure BatchCall where
  metadata : SignatureMetadata
  batchSize : ℕ
  baseHash : Hash256
  message : PartialSignatureMessage

namespace BatchCall

def sendOnce (c : BatchCall) : Bool :=
  c.metadata.role = .committee && c.metadata.kind = .postConsensus

def key (c : BatchCall) : CommitteeBatchKey :=
  if c.sendOnce then .committeePostConsensus c.metadata.slot c.metadata.committeeId
  else .decidedValue c.baseHash c.metadata.committeeId

theorem key_eq_committeePostConsensus {c : BatchCall} {slot : ℕ} {committeeId : CommitteeId} :
    c.key = .committeePostConsensus slot committeeId ↔
      c.sendOnce = true ∧ c.metadata.slot = slot ∧ c.metadata.committeeId = committeeId := by
  unfold key
  split_ifs with h <;> simp [h]

theorem key_eq_decidedValue {c : BatchCall} {baseHash : Hash256} {committeeId : CommitteeId} :
    c.key = .decidedValue baseHash committeeId ↔
      c.sendOnce = false ∧ c.baseHash = baseHash ∧ c.metadata.committeeId = committeeId := by
  unfold key
  split_ifs with h <;> simp [h]

end BatchCall

abbrev CommitteeBatches := CommitteeBatchKey → Option CommitteePartialSignatureBatch

def takeReadyCommitteeBatch (batches : CommitteeBatches) (now : Option ℕ) (c : BatchCall) :
    CommitteeBatches × Option (List PartialSignatureMessage) :=
  -- the entry is held from here on, so no cleaning comes between the check and the insertion
  if c.sendOnce && isStaleSlot now c.metadata.slot then (batches, none)
  else
    let batch := (batches c.key).getD ⟨some [], c.metadata.slot⟩
    match batch.batchedValidatorPartialSignatures with
    | none => (batches, none)
    | some signatures =>
      let signatures := signatures ++ [c.message]
      if signatures.length ≠ c.batchSize then
        (Function.update batches c.key (some ⟨some signatures, batch.forSlot⟩), none)
      else if c.sendOnce then
        (Function.update batches c.key (some ⟨none, batch.forSlot⟩), some signatures)
      else (Function.update batches c.key none, some signatures)

theorem takeReadyCommitteeBatch_of_ne (batches : CommitteeBatches) (now : Option ℕ) {c : BatchCall}
    {key : CommitteeBatchKey} (h : c.key ≠ key) :
    (takeReadyCommitteeBatch batches now c).1 key = batches key := by
  have hupdate : ∀ batch, Function.update batches c.key batch key = batches key := fun batch =>
    Function.update_of_ne (Ne.symm h) batch batches
  unfold takeReadyCommitteeBatch
  by_cases hstale : (c.sendOnce && isStaleSlot now c.metadata.slot) = true
  · rw [if_pos hstale]
  rw [if_neg hstale]
  dsimp only
  split
  · rfl
  · split_ifs <;> exact hupdate _

theorem takeReadyCommitteeBatch_of_open {batches : CommitteeBatches} {now : Option ℕ}
    {c : BatchCall} {signatures : List PartialSignatureMessage} {forSlot : ℕ}
    (hstale : (c.sendOnce && isStaleSlot now c.metadata.slot) = false)
    (hbatch : (batches c.key).getD ⟨some [], c.metadata.slot⟩ = ⟨some signatures, forSlot⟩) :
    takeReadyCommitteeBatch batches now c =
      if (signatures ++ [c.message]).length ≠ c.batchSize then
        (Function.update batches c.key (some ⟨some (signatures ++ [c.message]), forSlot⟩), none)
      else (Function.update batches c.key (if c.sendOnce then some ⟨none, forSlot⟩ else none),
        some (signatures ++ [c.message])) := by
  simp only [takeReadyCommitteeBatch, hstale, Bool.false_eq_true, if_false, hbatch]
  split_ifs <;> rfl

/-! ## Runs -/

structure BatchManager where
  clock : ℕ
  batches : CommitteeBatches
  taken : List (CommitteeBatchKey × List PartialSignatureMessage)

/-- The clock moves on, a call is made, or the cleaner removes stale entries, by a
reading of the clock that may be some slots old. -/
inductive BatchEvent where
  | tick (slots : ℕ)
  | call (c : BatchCall)
  | clean (age : ℕ)

namespace BatchManager

def isKept (m : BatchManager) (age : ℕ) (batch : CommitteePartialSignatureBatch) : Bool :=
  cutoffAt (m.clock - age) ≤ batch.forSlot

def step (m : BatchManager) : BatchEvent → BatchManager
  | .tick slots => { m with clock := m.clock + slots }
  | .call c =>
    let result := takeReadyCommitteeBatch m.batches (some m.clock) c
    { m with
      batches := result.1
      taken := m.taken ++ result.2.toList.map fun batch => (c.key, batch) }
  | .clean age => { m with batches := fun key => (m.batches key).filter (m.isKept age) }

def new (clock : ℕ) : BatchManager := ⟨clock, fun _ => none, []⟩

def takenFor (m : BatchManager) (key : CommitteeBatchKey) : List (List PartialSignatureMessage) :=
  (m.taken.filter (·.1 = key)).map Prod.snd

def pending (m : BatchManager) (key : CommitteeBatchKey) : List PartialSignatureMessage :=
  ((m.batches key).bind (·.batchedValidatorPartialSignatures)).getD []

end BatchManager

namespace BatchEvent

def pushedFor (key : CommitteeBatchKey) (es : List BatchEvent) : List PartialSignatureMessage :=
  es.filterMap fun
    | call c => if c.key = key then some c.message else none
    | _ => none

def CommonSize (key : CommitteeBatchKey) (size : ℕ) : BatchEvent → Prop
  | call c => c.key = key → c.batchSize = size
  | _ => True

theorem pushedFor_concat_call (key : CommitteeBatchKey) (es : List BatchEvent) (c : BatchCall) :
    pushedFor key (es ++ [call c]) =
      pushedFor key es ++ if c.key = key then [c.message] else [] := by
  unfold pushedFor
  rw [List.filterMap_append]
  split_ifs with h <;> simp [h]

end BatchEvent

namespace BatchManager

open BatchEvent

variable {m : BatchManager} {key : CommitteeBatchKey} {size : ℕ} {es : List BatchEvent}

theorem takenFor_call (m : BatchManager) (c : BatchCall) (key : CommitteeBatchKey) :
    (m.step (.call c)).takenFor key = m.takenFor key ++
      if c.key = key then (takeReadyCommitteeBatch m.batches (some m.clock) c).2.toList
      else [] := by
  simp only [step, takenFor, List.filter_append, List.map_append]
  congr 1
  cases (takeReadyCommitteeBatch m.batches (some m.clock) c).2 with
  | none => simp
  | some batch =>
    by_cases h : c.key = key <;> simp [h]

/-! ## Batches that are sent once -/

section Once

variable {slot : ℕ}

/-- What holds of a committee's post-consensus batch for a slot: until the slot is stale
the entry is open and holds all messages, or it is the mark of the batch that was taken. -/
structure SentOnce (key : CommitteeBatchKey) (slot size : ℕ) (es : List BatchEvent)
    (m : BatchManager) : Prop where
  taken : m.takenFor key = [] ∨
    size ≤ (pushedFor key es).length ∧
      m.takenFor key =
        [(pushedFor key es).take size]
  entry : cutoffAt m.clock ≤ slot →
    ((m.batches key).getD ⟨some [], slot⟩ =
        ⟨some (pushedFor key es), slot⟩ ∧
      (pushedFor key es).length < size ∧
      m.takenFor key = []) ∨
    (m.batches key = some ⟨none, slot⟩ ∧
      size ≤ (pushedFor key es).length)

theorem sentOnce_tick {slots : ℕ} (h : SentOnce key slot size es m) :
    SentOnce key slot size (es ++ [.tick slots]) (m.step (.tick slots)) := by
  have hpushed : pushedFor key (es ++ [.tick slots]) =
      pushedFor key es := by
    simp [pushedFor]
  refine ⟨by rw [hpushed]; exact h.taken, fun hfresh => ?_⟩
  rw [hpushed]
  exact h.entry ((cutoffAt_mono (Nat.le_add_right _ _)).trans hfresh)

theorem sentOnce_clean {age : ℕ} (h : SentOnce key slot size es m) :
    SentOnce key slot size (es ++ [.clean age]) (m.step (.clean age)) := by
  have hpushed : pushedFor key (es ++ [.clean age]) =
      pushedFor key es := by
    simp [pushedFor]
  refine ⟨by rw [hpushed]; exact h.taken, fun hfresh => ?_⟩
  rw [hpushed]
  have hcutoff : cutoffAt (m.clock - age) ≤ slot := (cutoffAt_mono (Nat.sub_le _ _)).trans hfresh
  have hkept : (m.step (.clean age)).batches key =
      m.batches key := by
    change (m.batches _).filter (m.isKept age) = m.batches _
    cases hbatch : m.batches key with
    | none => rfl
    | some batch =>
      have hslot : batch.forSlot = slot := by
        rcases h.entry hfresh with ⟨hopen, -⟩ | ⟨hmark, -⟩
        · rw [hbatch] at hopen
          exact congrArg CommitteePartialSignatureBatch.forSlot hopen
        · rw [hbatch] at hmark
          rw [Option.some.inj hmark]
      simp [isKept, hslot, hcutoff]
  rw [hkept]
  exact h.entry hfresh

theorem sentOnce_call {c : BatchCall}
    (honce : c.key = key → c.sendOnce = true ∧ c.metadata.slot = slot)
    (hcommon : c.key = key → c.batchSize = size) (h : SentOnce key slot size es m) :
    SentOnce key slot size (es ++ [.call c]) (m.step (.call c)) := by
  by_cases hkey : c.key = key
  swap
  · have hpushed : pushedFor key (es ++ [.call c]) =
        pushedFor key es := by
      rw [pushedFor_concat_call, if_neg hkey, List.append_nil]
    have htaken := takenFor_call m c key
    rw [if_neg hkey, List.append_nil] at htaken
    have hbatch : (m.step (.call c)).batches key =
        m.batches key :=
      takeReadyCommitteeBatch_of_ne _ _ hkey
    exact ⟨by rw [hpushed, htaken]; exact h.taken, by rw [hpushed, htaken, hbatch]; exact h.entry⟩
  obtain ⟨honce, hslot⟩ := honce hkey
  have hpushed : pushedFor key (es ++ [.call c]) =
      pushedFor key es ++ [c.message] := by
    rw [pushedFor_concat_call, if_pos hkey]
  have htaken := takenFor_call m c key
  rw [if_pos hkey] at htaken
  have hlength := congrArg List.length hpushed
  rw [List.length_append, List.length_singleton] at hlength
  -- a call on a stale slot or after the batch was taken changes nothing
  have hidle : takeReadyCommitteeBatch m.batches (some m.clock) c = (m.batches, none) →
      (cutoffAt m.clock ≤ slot →
        m.batches key = some ⟨none, slot⟩ ∧
          size ≤ (pushedFor key es).length) →
      SentOnce key slot size (es ++ [.call c]) (m.step (.call c)) := by
    intro hresult hmark
    have hbatches : (m.step (.call c)).batches = m.batches := congrArg Prod.fst hresult
    rw [hresult, Option.toList_none, List.append_nil] at htaken
    refine ⟨?_, fun hfresh => ?_⟩
    · rw [htaken]
      refine h.taken.imp_right fun ⟨hle, heq⟩ => ⟨by omega, ?_⟩
      rw [heq, hpushed, List.take_append_of_le_length hle]
    · rw [hbatches]
      obtain ⟨hbatch, hle⟩ := hmark hfresh
      exact Or.inr ⟨hbatch, by omega⟩
  by_cases hstale : slot < cutoffAt m.clock
  · apply hidle
    · simp [takeReadyCommitteeBatch, honce, hslot, isStaleSlot_some.mpr hstale]
    · intro hfresh
      omega
  have hfresh : isStaleSlot (some m.clock) c.metadata.slot = false := by
    rw [hslot, Bool.eq_false_iff, Ne, isStaleSlot_some]
    exact hstale
  rcases h.entry (not_lt.mp hstale) with ⟨hopen, hlt, hnone⟩ | ⟨hmark, hle⟩
  swap
  · apply hidle
    · simp [takeReadyCommitteeBatch, hfresh, hkey, hmark]
    · exact fun _ => ⟨hmark, hle⟩
  rw [← hkey, ← hslot] at hopen
  have hguard : (c.sendOnce && isStaleSlot (some m.clock) c.metadata.slot) = false := by
    rw [hfresh, Bool.and_false]
  have hresult := takeReadyCommitteeBatch_of_open hguard hopen
  rw [hslot, hkey, hcommon hkey, ← hpushed, honce, if_pos rfl] at hresult
  by_cases hfull : (pushedFor key (es ++ [.call c])).length =
      size
  · rw [if_neg (not_not.mpr hfull)] at hresult
    have hbatch : (m.step (.call c)).batches key = some ⟨none, slot⟩ :=
      (congrFun (congrArg Prod.fst hresult) key).trans (Function.update_self _ _ _)
    rw [hresult, hnone] at htaken
    refine ⟨Or.inr ⟨hfull.ge, ?_⟩, fun _ => Or.inr ⟨hbatch, hfull.ge⟩⟩
    rw [htaken, List.take_of_length_le hfull.le]
    rfl
  · rw [if_pos hfull] at hresult
    have hbatch : (m.step (.call c)).batches key =
        some ⟨some (pushedFor key (es ++ [.call c])), slot⟩ :=
      (congrFun (congrArg Prod.fst hresult) key).trans (Function.update_self _ _ _)
    rw [hresult, hnone] at htaken
    refine ⟨Or.inl htaken, fun _ => Or.inl ⟨?_, by omega, htaken⟩⟩
    rw [hbatch]
    rfl

theorem sentOnce_run (hsize : 1 ≤ size)
    (honce : ∀ c : BatchCall, c.key = key → c.sendOnce = true ∧ c.metadata.slot = slot)
    (hcommon : ∀ e ∈ es, e.CommonSize key size) (clock : ℕ) :
    SentOnce key slot size es (Machine.run step (new clock) es) := by
  refine Machine.history (J := SentOnce key slot size) ⟨Or.inl rfl, fun _ =>
    Or.inl ⟨rfl, hsize, rfl⟩⟩ ?_ (Machine.steps_of_forall (fun e he _ => hcommon e he) _)
  intro es m e he h
  cases e with
  | tick slots => exact sentOnce_tick h
  | call c => exact sentOnce_call (honce c) he h
  | clean age => exact sentOnce_clean h

end Once

/-! ## Batches that are sent again and again -/

def NotCleaned (key : CommitteeBatchKey) (m : BatchManager) : BatchEvent → Prop
  | .clean age => (m.batches key).all (m.isKept age) = true
  | _ => True

/-- What holds of a key that is not cleaned: the batches taken since the key was vacant and
the messages that wait are the messages pushed, in order. -/
structure Grouped (key : CommitteeBatchKey) (size : ℕ)
    (before : List (List PartialSignatureMessage)) (es : List BatchEvent) (m : BatchManager) :
    Prop where
  isOpen : ∀ batch, m.batches key = some batch → batch.batchedValidatorPartialSignatures.isSome
  length_pending : (m.pending key).length < size
  groups : ∃ groups, m.takenFor key = before ++ groups ∧
    groups.flatten ++ m.pending key = pushedFor key es ∧ ∀ group ∈ groups, group.length = size

variable {before : List (List PartialSignatureMessage)}

theorem grouped_call {c : BatchCall} (honce : c.key = key → c.sendOnce = false)
    (hcommon : c.key = key → c.batchSize = size) (hsize : 1 ≤ size)
    (h : Grouped key size before es m) :
    Grouped key size before (es ++ [.call c]) (m.step (.call c)) := by
  obtain ⟨groups, htakenBefore, hflatten, hlengths⟩ := h.groups
  have htaken := takenFor_call m c key
  by_cases hkey : c.key = key
  swap
  · have hbatch : (m.step (.call c)).batches key = m.batches key :=
      takeReadyCommitteeBatch_of_ne _ _ hkey
    have hpending : (m.step (.call c)).pending key = m.pending key := by
      rw [pending, hbatch, pending]
    rw [if_neg hkey, List.append_nil] at htaken
    refine ⟨by rw [hbatch]; exact h.isOpen, by rw [hpending]; exact h.length_pending, groups,
      htaken.trans htakenBefore, ?_, hlengths⟩
    rw [hpending, pushedFor_concat_call, if_neg hkey, List.append_nil, hflatten]
  have hpushed : pushedFor key (es ++ [.call c]) = pushedFor key es ++ [c.message] := by
    rw [pushedFor_concat_call, if_pos hkey]
  have hentry : ∃ forSlot, (m.batches c.key).getD ⟨some [], c.metadata.slot⟩ =
      ⟨some (m.pending key), forSlot⟩ := by
    rw [hkey, pending]
    cases hbatch : m.batches key with
    | none => exact ⟨_, rfl⟩
    | some batch =>
      obtain ⟨signatures, hsignatures⟩ := Option.isSome_iff_exists.mp (h.isOpen batch hbatch)
      refine ⟨batch.forSlot, ?_⟩
      simp only [Option.getD_some, Option.bind_some, hsignatures]
      rw [← hsignatures]
  obtain ⟨forSlot, hentry⟩ := hentry
  have hguard : (c.sendOnce && isStaleSlot (some m.clock) c.metadata.slot) = false := by
    rw [honce hkey, Bool.false_and]
  have hresult := takeReadyCommitteeBatch_of_open hguard hentry
  rw [hcommon hkey, hkey, honce hkey] at hresult
  rw [if_pos hkey] at htaken
  by_cases hfull : (m.pending key ++ [c.message]).length = size
  · -- the message fills the batch, which is taken and removed
    rw [if_neg (not_not.mpr hfull), if_neg Bool.false_ne_true] at hresult
    have hbatch : (m.step (.call c)).batches key = none :=
      (congrFun (congrArg Prod.fst hresult) key).trans (Function.update_self _ _ _)
    have hpending : (m.step (.call c)).pending key = [] := by
      rw [pending, hbatch]
      rfl
    refine ⟨by simp [hbatch], by rw [hpending]; exact hsize,
      groups ++ [m.pending key ++ [c.message]], ?_, ?_, ?_⟩
    · rw [htaken, hresult, htakenBefore, List.append_assoc]
      rfl
    · rw [hpending, hpushed, ← hflatten]
      simp
    · intro group hgroup
      rcases List.mem_append.mp hgroup with hgroup | hgroup
      · exact hlengths group hgroup
      · rw [List.mem_singleton.mp hgroup]
        exact hfull
  · rw [if_pos hfull] at hresult
    have hbatch : (m.step (.call c)).batches key =
        some ⟨some (m.pending key ++ [c.message]), forSlot⟩ :=
      (congrFun (congrArg Prod.fst hresult) key).trans (Function.update_self _ _ _)
    have hpending : (m.step (.call c)).pending key = m.pending key ++ [c.message] := by
      rw [pending, hbatch]
      rfl
    have hlt := h.length_pending
    rw [List.length_append, List.length_singleton] at hfull
    refine ⟨?_, ?_, groups, ?_, ?_, hlengths⟩
    · intro batch hsome
      rw [← Option.some.inj (hbatch.symm.trans hsome)]
      rfl
    · rw [hpending, List.length_append, List.length_singleton]
      omega
    · rw [htaken, hresult, htakenBefore]
      exact List.append_nil _
    · rw [hpending, hpushed, ← hflatten, List.append_assoc]

theorem grouped_clean {age : ℕ} (hkept : (m.batches key).all (m.isKept age) = true)
    (h : Grouped key size before es m) :
    Grouped key size before (es ++ [.clean age]) (m.step (.clean age)) := by
  have hbatch : (m.step (.clean age)).batches key = m.batches key := by
    change (m.batches key).filter (m.isKept age) = m.batches key
    cases hbatch : m.batches key with
    | none => rfl
    | some batch => simpa [hbatch] using hkept
  have hpending : (m.step (.clean age)).pending key = m.pending key := by
    rw [pending, hbatch, pending]
  obtain ⟨groups, htaken, hflatten, hlengths⟩ := h.groups
  refine ⟨by rw [hbatch]; exact h.isOpen, by rw [hpending]; exact h.length_pending, groups, htaken,
    ?_, hlengths⟩
  rw [hpending, hflatten]
  simp [pushedFor]

theorem grouped_run (hsize : 1 ≤ size) (honce : ∀ c : BatchCall, c.key = key → c.sendOnce = false)
    (hcommon : ∀ e ∈ es, e.CommonSize key size) (hvacant : m.batches key = none)
    (hcleaned : Machine.Steps step (NotCleaned key) m es) :
    Grouped key size (m.takenFor key) es (Machine.run step m es) := by
  have hpending : m.pending key = [] := by
    rw [pending, hvacant]
    rfl
  induction es using List.reverseRecOn with
  | nil =>
    refine ⟨by simp [hvacant], by rw [Machine.run_nil, hpending]; exact hsize, [], ?_, ?_,
      by simp⟩
    · exact (List.append_nil _).symm
    · rw [Machine.run_nil, hpending]
      rfl
  | append_singleton es e ih =>
    obtain ⟨hes, he⟩ := Machine.steps_concat.mp hcleaned
    have h := ih (fun d hd => hcommon d (List.mem_append_left _ hd)) hes
    have hsame := hcommon e (by simp)
    rw [Machine.run_concat]
    cases e with
    | tick slots =>
      obtain ⟨groups, htaken, hflatten, hlengths⟩ := h.groups
      exact ⟨h.isOpen, h.length_pending, groups, htaken, hflatten.trans (by simp [pushedFor]),
        hlengths⟩
    | call c => exact grouped_call (honce c) hsame hsize h
    | clean age => exact grouped_clean he h

/-! ## The main result -/

/-- Batches of a committee are sent once and lose nothing.  Of a committee's post-consensus
messages for a slot at most one batch is ever taken, and it is the first ones pushed.  For
every other key, from any moment at which it has no batch and as long as it is not cleaned,
the batches taken are consecutive groups of the messages pushed. -/
theorem committee_batches_sent_once (clock : ℕ) (es : List BatchEvent) (size : ℕ)
    (hsize : 1 ≤ size) :
    (∀ slot committeeId,
      (∀ e ∈ es, e.CommonSize (.committeePostConsensus slot committeeId) size) →
      (Machine.run step (new clock) es).takenFor (.committeePostConsensus slot committeeId) = [] ∨
      size ≤ (pushedFor (.committeePostConsensus slot committeeId) es).length ∧
      (Machine.run step (new clock) es).takenFor (.committeePostConsensus slot committeeId) =
        [(pushedFor (.committeePostConsensus slot committeeId) es).take size]) ∧
    ∀ baseHash committeeId (m : BatchManager),
      (∀ e ∈ es, e.CommonSize (.decidedValue baseHash committeeId) size) →
      m.batches (.decidedValue baseHash committeeId) = none →
      Machine.Steps step (NotCleaned (.decidedValue baseHash committeeId)) m es →
      ∃ groups, (Machine.run step m es).takenFor (.decidedValue baseHash committeeId) =
          m.takenFor (.decidedValue baseHash committeeId) ++ groups ∧
        groups.flatten ++ (Machine.run step m es).pending (.decidedValue baseHash committeeId) =
          pushedFor (.decidedValue baseHash committeeId) es ∧
        (∀ group ∈ groups, group.length = size) ∧
        ((Machine.run step m es).pending (.decidedValue baseHash committeeId)).length < size := by
  refine ⟨fun slot committeeId hcommon => ?_, fun baseHash committeeId m hcommon hvacant hcleaned =>
    ?_⟩
  · have honce : ∀ c : BatchCall, c.key = .committeePostConsensus slot committeeId →
        c.sendOnce = true ∧ c.metadata.slot = slot := fun c hc =>
      (BatchCall.key_eq_committeePostConsensus.mp hc).imp_right And.left
    exact (sentOnce_run hsize honce hcommon clock).taken
  · have honce : ∀ c : BatchCall, c.key = .decidedValue baseHash committeeId → c.sendOnce = false :=
      fun c hc => (BatchCall.key_eq_decidedValue.mp hc).1
    have hgrouped := grouped_run hsize honce hcommon hvacant hcleaned
    obtain ⟨groups, htaken, hflatten, hlengths⟩ := hgrouped.groups
    exact ⟨groups, htaken, hflatten, hlengths, hgrouped.length_pending⟩

/-! ## Whether a batch is taken -/

theorem takeReadyCommitteeBatch_of_none {batches : CommitteeBatches} {now : Option ℕ}
    {c : BatchCall} (h : (takeReadyCommitteeBatch batches now c).2 = none) :
    (takeReadyCommitteeBatch batches now c).1 = batches ∨
      ∃ signatures forSlot, (takeReadyCommitteeBatch batches now c).1 c.key =
        some ⟨some signatures, forSlot⟩ := by
  cases hguard : c.sendOnce && isStaleSlot now c.metadata.slot with
  | true => exact Or.inl (by simp [takeReadyCommitteeBatch, hguard])
  | false =>
    cases hbatch : ((batches c.key).getD ⟨some [], c.metadata.slot⟩) with
    | mk signatures forSlot =>
      cases signatures with
      | none => exact Or.inl (by simp [takeReadyCommitteeBatch, hguard, hbatch])
      | some signatures =>
        rw [takeReadyCommitteeBatch_of_open hguard hbatch] at h ⊢
        split at h
        · rename_i hfull
          rw [if_pos hfull]
          exact Or.inr ⟨_, _, Function.update_self _ _ _⟩
        · cases h

theorem takenFor_ne_nil_of_mark {clock forSlot : ℕ} {es : List BatchEvent}
    (h : (Machine.run step (new clock) es).batches key = some ⟨none, forSlot⟩) :
    (Machine.run step (new clock) es).takenFor key ≠ [] := by
  let Marked (m : BatchManager) : Prop :=
    ∀ forSlot, m.batches key = some ⟨none, forSlot⟩ → m.takenFor key ≠ []
  have hrun : Marked (Machine.run step (new clock) es) := by
    refine Machine.invariant (P := fun _ _ => True) ?_ ?_
      (Machine.steps_of_forall (fun _ _ _ => trivial) _)
    · intro forSlot hmark
      cases hmark
    intro m e _ hm forSlot hmark
    cases e with
    | tick slots => exact hm forSlot hmark
    | clean age => exact hm forSlot (Option.filter_eq_some_iff.mp hmark).1
    | call c =>
      rw [takenFor_call]
      by_cases hkey : c.key = key
      · subst hkey
        rw [if_pos rfl]
        cases htaken : (takeReadyCommitteeBatch m.batches (some m.clock) c).2 with
        | some batch => simp
        | none =>
          -- the mark was there before
          rcases takeReadyCommitteeBatch_of_none htaken with hsame | ⟨signatures, s, hopen⟩
          · simp only [step, hsame] at hmark
            simpa using hm forSlot hmark
          · simp only [step, hopen] at hmark
            cases hmark
      · have hbatch : (m.step (.call c)).batches key = m.batches key :=
          takeReadyCommitteeBatch_of_ne _ _ hkey
        rw [hbatch] at hmark
        rw [if_neg hkey, List.append_nil]
        exact hm forSlot hmark
  exact hrun forSlot h

/-- If the calls for a committee's post-consensus batch all ask for one size, then nothing is
taken while they are fewer, and all of them are taken together once they are as many. -/
theorem takenFor_postConsensus {slot size : ℕ} {committeeId : CommitteeId} (clock : ℕ)
    {es : List BatchEvent} (hsize : 1 ≤ size)
    (hcommon : ∀ e ∈ es, e.CommonSize (.committeePostConsensus slot committeeId) size) :
    ((pushedFor (.committeePostConsensus slot committeeId) es).length < size →
      (Machine.run step (new clock) es).takenFor (.committeePostConsensus slot committeeId) = []) ∧
    ((pushedFor (.committeePostConsensus slot committeeId) es).length = size →
      cutoffAt (Machine.run step (new clock) es).clock ≤ slot →
      (Machine.run step (new clock) es).takenFor (.committeePostConsensus slot committeeId) =
        [pushedFor (.committeePostConsensus slot committeeId) es]) := by
  have h := sentOnce_run hsize (fun c hc =>
    (BatchCall.key_eq_committeePostConsensus.mp hc).imp_right And.left) hcommon clock
  constructor
  · intro hlt
    rcases h.taken with hnil | ⟨hle, -⟩
    · exact hnil
    · omega
  · intro heq hfresh
    rcases h.entry hfresh with ⟨-, hlt, -⟩ | ⟨hmark, -⟩
    · omega
    · rcases h.taken with hnil | ⟨-, htaken⟩
      · exact absurd hnil (takenFor_ne_nil_of_mark hmark)
      · rw [htaken, List.take_of_length_le heq.le]

end BatchManager

namespace Sample

open BatchManager BatchEvent

def batchCall (role : Role) (index : UInt64) : BatchEvent :=
  .call ⟨⟨.postConsensus, role, 3, 5, Hash256.default⟩, 2, Hash256.default,
    ⟨⟨List.replicate 96 0, length_zeroSignature⟩, Hash256.default, ⟨1⟩, index⟩⟩

def batchRun : List BatchEvent :=
  [batchCall .committee 1, batchCall .aggregatorCommittee 1, .tick 2, .clean 1,
    batchCall .aggregatorCommittee 2, batchCall .committee 2, batchCall .aggregatorCommittee 3,
    batchCall .committee 3]

theorem committee_batches_sent_once_run :
    (Machine.run step (new 4) batchRun).takenFor (.committeePostConsensus 5 Hash256.default) =
      [(pushedFor (.committeePostConsensus 5 Hash256.default) batchRun).take 2] ∧
    ∃ groups, (Machine.run step (new 4) batchRun).takenFor
        (.decidedValue Hash256.default Hash256.default) = groups ∧
      groups.flatten ++ (Machine.run step (new 4) batchRun).pending
        (.decidedValue Hash256.default Hash256.default) =
          pushedFor (.decidedValue Hash256.default Hash256.default) batchRun := by
  obtain ⟨honce, hgroups⟩ := committee_batches_sent_once 4 batchRun 2 (by decide)
  refine ⟨?_, ?_⟩
  · rcases honce 5 Hash256.default (by simp [batchRun, batchCall, CommonSize]) with hnil | ⟨-, h⟩
    · exact absurd hnil (by decide +kernel)
    · exact h
  · obtain ⟨groups, htaken, hflatten, -⟩ := hgroups Hash256.default Hash256.default (new 4)
      (by simp [batchRun, batchCall, CommonSize]) rfl
      (by simp [batchRun, batchCall, Machine.Steps, NotCleaned]; decide +kernel)
    exact ⟨groups, htaken, hflatten⟩

end Sample

end Anchor
