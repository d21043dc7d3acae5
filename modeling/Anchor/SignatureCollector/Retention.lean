import Mathlib
import Anchor.Library.Machine
import Anchor.SignatureCollector.Basic
import Anchor.Validator.Run

/-!
# How long collectors stay

A collector belongs to a signing root and a validator index.  Whichever message needs
it first spawns it, and fixes the slot after which the cleaner removes it.  A request
that finds a collector for another slot is at the mercy of that slot.
-/

namespace Anchor

abbrev CollectorKey := Hash256 × UInt64

/-- A collector in the map; the number tells it from other collectors of the same key. -/
structure CollectorHandle where
  number : ℕ
  forSlot : ℕ
deriving DecidableEq

structure Collectors where
  clock : ℕ
  handles : CollectorKey → Option CollectorHandle
  next : ℕ

/-- What happens to the collectors.  A request is registered by `sign_and_collect` or
`sign_proposer_packet`, a share comes in by `receive_partial_signature_with_companion`; both
look at the clock only in some cases, and can then only read it if it is readable. -/
inductive CollectorsEvent where
  | tick (slots : ℕ)
  | register (key : CollectorKey) (slot : ℕ) (checkSlot readable : Bool)
  | receive (key : CollectorKey) (slot : ℕ) (checkSlot readable : Bool)
  | wait (key : CollectorKey) (slot : ℕ) (readable : Bool)
  | clean (age : ℕ)

inductive WaitAnswer where
  | staleSlot
  | unknownCollector
  | slotMismatch
  | registered
deriving DecidableEq

/-- The shares of a packet that the validator passed on, as they reach the collectors: those of a
proposer by `receive_proposer_partial_signatures`, all others by `receive_partial_signatures`. -/
def PartialSignatureMessages.receiveEvents (packet : PartialSignatureMessages) (role : Role)
    (readable : Bool) : List CollectorsEvent :=
  packet.messages.toList.map fun m => .receive (m.signingRoot, m.validatorIndex) packet.slot.toNat
    (role = .proposer && packet.kind = .postConsensus) readable

namespace Collectors

def new (clock : ℕ) : Collectors := ⟨clock, fun _ => none, 0⟩

def now (st : Collectors) (readable : Bool) : Option ℕ := if readable then some st.clock else none

def getOrSpawn (st : Collectors) (key : CollectorKey) (slot : ℕ) : Collectors :=
  match st.handles key with
  | some _ => st
  | none =>
    { st with
      handles := Function.update st.handles key (some ⟨st.next, slot⟩)
      next := st.next + 1 }

def waitForRegisteredSignature (st : Collectors) (key : CollectorKey) (slot : ℕ)
    (readable : Bool) : WaitAnswer :=
  if isStaleSlot (st.now readable) slot then .staleSlot
  else
    match st.handles key with
    | none => .unknownCollector
    | some handle => if handle.forSlot ≠ slot then .slotMismatch else .registered

def removeStaleEntries (st : Collectors) (cutoff : ℕ) : Collectors :=
  { st with handles := fun key => (st.handles key).filter (cutoff ≤ ·.forSlot) }

def step (st : Collectors) : CollectorsEvent → Collectors
  | .tick slots => { st with clock := st.clock + slots }
  | .register key slot checkSlot readable | .receive key slot checkSlot readable =>
    if checkSlot && isStaleSlot (st.now readable) slot then st else st.getOrSpawn key slot
  | .wait _ _ _ => st
  | .clean age => st.removeStaleEntries (cutoffAt (st.clock - age))

def Fresh (st : Collectors) (slot : ℕ) : Prop := cutoffAt st.clock ≤ slot

variable {st : Collectors} {key : CollectorKey} {slot : ℕ}

theorem isStaleSlot_of_fresh (h : st.Fresh slot) (readable : Bool) :
    isStaleSlot (st.now readable) slot = false := by
  cases readable with
  | false => rfl
  | true =>
    rw [Bool.eq_false_iff, Ne, now, if_pos rfl, isStaleSlot_some]
    exact not_lt.mpr h

@[simp] theorem clock_getOrSpawn (st : Collectors) (key : CollectorKey) (slot : ℕ) :
    (st.getOrSpawn key slot).clock = st.clock := by
  unfold getOrSpawn
  split <;> rfl

theorem clock_register (st : Collectors) (key : CollectorKey) (slot : ℕ)
    (checkSlot readable : Bool) :
    (st.step (.register key slot checkSlot readable)).clock = st.clock := by
  simp only [step]
  split_ifs
  · rfl
  · exact st.clock_getOrSpawn key slot

theorem clock_le_step (st : Collectors) (e : CollectorsEvent) : st.clock ≤ (st.step e).clock := by
  cases e with
  | tick slots => exact Nat.le_add_right _ _
  | register key slot checkSlot readable => exact (st.clock_register key slot checkSlot readable).ge
  | receive key slot checkSlot readable => exact (st.clock_register key slot checkSlot readable).ge
  | wait key slot readable => exact le_rfl
  | clean age => exact le_rfl

theorem clock_le_run (st : Collectors) (es : List CollectorsEvent) :
    st.clock ≤ (Machine.run step st es).clock := by
  induction es generalizing st with
  | nil => exact le_rfl
  | cons e es ih => exact (st.clock_le_step e).trans (ih _)

variable {handle : CollectorHandle}

theorem handles_getOrSpawn_of_some (h : st.handles key = some handle)
    (key' : CollectorKey) (slot' : ℕ) : (st.getOrSpawn key' slot').handles key = some handle := by
  unfold getOrSpawn
  split
  · exact h
  · rename_i hnone
    have hne : key ≠ key' := by
      rintro rfl
      cases hnone.symm.trans h
    simp only [Function.update_of_ne hne, h]

theorem handles_step (h : st.handles key = some handle)
    (e : CollectorsEvent) (hfresh : st.Fresh handle.forSlot) :
    (st.step e).handles key = some handle := by
  cases e with
  | tick slots => exact h
  | register key' slot' checkSlot readable =>
    simp only [step]
    split_ifs
    · exact h
    · exact handles_getOrSpawn_of_some h key' slot'
  | receive key' slot' checkSlot readable =>
    simp only [step]
    split_ifs
    · exact h
    · exact handles_getOrSpawn_of_some h key' slot'
  | wait key' slot' readable => exact h
  | clean age =>
    have hcutoff : cutoffAt (st.clock - age) ≤ handle.forSlot :=
      (cutoffAt_mono (Nat.sub_le _ _)).trans hfresh
    simp [step, removeStaleEntries, h, hcutoff]

theorem handles_run (h : st.handles key = some handle)
    (es : List CollectorsEvent) (hfresh : (Machine.run step st es).Fresh handle.forSlot) :
    (Machine.run step st es).handles key = some handle := by
  induction es generalizing st with
  | nil => exact h
  | cons e es ih =>
    have hclock : st.clock ≤ (Machine.run step st (e :: es)).clock := st.clock_le_run (e :: es)
    exact ih (handles_step h e ((cutoffAt_mono hclock).trans hfresh)) hfresh

theorem handles_register (key : CollectorKey) (hfresh : st.Fresh slot)
    (checkSlot readable : Bool) :
    ∃ handle, (st.step (.register key slot checkSlot readable)).handles key = some handle ∧
      (st.handles key = some handle ∨ st.handles key = none ∧ handle.forSlot = slot) := by
  simp only [step, isStaleSlot_of_fresh hfresh, Bool.and_false, Bool.false_eq_true, if_false]
  cases h : st.handles key with
  | some handle => exact ⟨handle, handles_getOrSpawn_of_some h key slot, Or.inl rfl⟩
  | none =>
    refine ⟨⟨st.next, slot⟩, ?_, Or.inr ⟨rfl, rfl⟩⟩
    simp [getOrSpawn, h]

/-- The collector of a key is the same as long as the slot is not stale. -/
def Keeps (st : Collectors) (key : CollectorKey) (slot : ℕ) : Prop :=
  ∀ es, (Machine.run step st es).Fresh slot →
    (Machine.run step st es).handles key = st.handles key

/-- As long as the slot is not stale, no caller that waits for it is refused for the slot. -/
def NeverRefuses (st : Collectors) (key : CollectorKey) (slot : ℕ) : Prop :=
  ∀ es readable, (Machine.run step st es).Fresh slot →
    (Machine.run step st es).waitForRegisteredSignature key slot readable ≠ .slotMismatch

theorem keeps_of_le (h : st.handles key = some handle)
    (hle : slot ≤ handle.forSlot) : st.Keeps key slot := by
  intro es hfresh
  rw [handles_run h es (hfresh.trans hle), h]

theorem not_keeps_of_lt (h : st.handles key = some handle)
    (hfresh : st.Fresh slot) (hlt : handle.forSlot < slot) : ¬ st.Keeps key slot := by
  intro hkeeps
  have hclock : st.clock + (slot + 1 - st.clock) = slot + 1 := by
    have : st.clock - 1 ≤ slot := hfresh
    omega
  have hcutoff : cutoffAt (st.clock + (slot + 1 - st.clock)) = slot := by
    rw [hclock]
    rfl
  have hkept : slot ≤ handle.forSlot := by
    simpa [step, removeStaleEntries, hcutoff, h] using
      hkeeps [.tick (slot + 1 - st.clock), .clean 0] hcutoff.le
  exact hkept.not_gt hlt

theorem waitForRegisteredSignature_of_fresh
    (h : st.handles key = some handle) (hfresh : st.Fresh slot) (readable : Bool) :
    st.waitForRegisteredSignature key slot readable =
      if handle.forSlot ≠ slot then .slotMismatch else .registered := by
  simp [waitForRegisteredSignature, isStaleSlot_of_fresh hfresh, h]

theorem neverRefuses_iff (h : st.handles key = some handle)
    (hfresh : st.Fresh slot) : st.NeverRefuses key slot ↔ handle.forSlot = slot := by
  constructor
  · intro hnever
    by_contra hne
    apply hnever [] true hfresh
    rw [Machine.run_nil, waitForRegisteredSignature_of_fresh h hfresh, if_pos hne]
  · rintro rfl es readable hfresh'
    rw [waitForRegisteredSignature_of_fresh (handles_run h es hfresh') hfresh']
    simp

/-- The cleaner leaves the collector of a request alone as long as the request's slot is not
stale, exactly if the request does not find one for an earlier slot.  It does, and no caller
that waits is refused for the slot, exactly if the request finds none or one for its slot. -/
theorem request_retained_iff (st : Collectors) (key : CollectorKey) (slot : ℕ)
    (checkSlot readable : Bool) (hfresh : st.Fresh slot) :
    ((st.step (.register key slot checkSlot readable)).Keeps key slot ↔
      ∀ handle, st.handles key = some handle → slot ≤ handle.forSlot) ∧
    ((st.step (.register key slot checkSlot readable)).Keeps key slot ∧
        (st.step (.register key slot checkSlot readable)).NeverRefuses key slot ↔
      ∀ handle, st.handles key = some handle → handle.forSlot = slot) := by
  obtain ⟨handle, hhandle, hfound⟩ := handles_register key hfresh checkSlot readable
  have hafter : (st.step (.register key slot checkSlot readable)).Fresh slot := by
    rw [Fresh, clock_register]
    exact hfresh
  have hkeeps : (st.step (.register key slot checkSlot readable)).Keeps key slot ↔
      slot ≤ handle.forSlot :=
    ⟨fun h => not_lt.mp fun hlt => not_keeps_of_lt hhandle hafter hlt h, keeps_of_le hhandle⟩
  rw [hkeeps, neverRefuses_iff hhandle hafter]
  rcases hfound with hfound | ⟨hnone, hslot⟩
  · have hboth : slot ≤ handle.forSlot ∧ handle.forSlot = slot ↔ handle.forSlot = slot :=
      and_iff_right_of_imp Eq.ge
    simp [hfound, hboth]
  · simp [hnone, hslot]

end Collectors

namespace Sample

def proposerShare : SignedSSVMessage := packet (validatorId .proposer) .postConsensus 0 ⟨1⟩ 7

def proposerShareMessages : PartialSignatureMessages :=
  ⟨.postConsensus, 0, ⟨[partialSignature ⟨1⟩ 7], length_firstSignature_le⟩⟩

def proposerKey : CollectorKey := (⟨List.replicate 32 7, by simp⟩, 0)

def requestRun : List CollectorsEvent :=
  proposerShareMessages.receiveEvents .proposer true ++
    [.tick 1, .register proposerKey 1 true true]

theorem request_retained_iff_vacant :
    ((Collectors.new 1).step (.register proposerKey 1 true true)).Keeps proposerKey 1 ∧
    ((Collectors.new 1).step (.register proposerKey 1 true true)).NeverRefuses proposerKey 1 :=
  (Collectors.request_retained_iff (Collectors.new 1) proposerKey 1 true true
    (by decide : cutoffAt 1 ≤ 1)).2.mpr fun _ h => nomatch h

/-- The validator passes a share for slot 0 on.  It spawns the collector, so a request for
slot 1 is refused for its slot, and dropped in slot 2 although slot 1 is not stale. -/
theorem request_dropped :
    (Validator.new validatorConfig).answer (reception 1) proposerShare =
      .ok (.partialSignatureMessages proposerShareMessages) ∧
    (Machine.run Collectors.step (Collectors.new 0) requestRun).waitForRegisteredSignature
      proposerKey 1 true = .slotMismatch ∧
    cutoffAt (Machine.run Collectors.step (Collectors.new 0)
      (requestRun ++ [.tick 1, .clean 0])).clock ≤ 1 ∧
    (Machine.run Collectors.step (Collectors.new 0) requestRun).handles proposerKey =
      some ⟨0, 0⟩ ∧
    (Machine.run Collectors.step (Collectors.new 0)
      (requestRun ++ [.tick 1, .clean 0])).handles proposerKey = none := by
  decide +kernel

end Sample

end Anchor
