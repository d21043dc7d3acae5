import Mathlib
import Anchor.Library.Machine
import Anchor.SignatureCollector.Basic

/-!
# Batches of a single validator

Before the Boole fork the sync committee signatures of a validator for a slot leave
in one packet.  The calls for the validator's subnets share a record, found or made
under the key of phase, slot and validator, and the first call that gets a packet
admitted marks the record.  A call consists of three steps that other calls and the
cleaner can come between: the check that its slot is not stale, the lookup of the
record, and the sending under the record's lock.
-/

namespace Anchor

structure SyncCommitteeBatchEntry where
  subnetId : ℕ
  signingRoot : Hash256
  multiplicity : ℕ
deriving DecidableEq

inductive SingleValidatorBatchPhase where
  | contributionProofs
  | postConsensus
deriving DecidableEq

def SingleValidatorBatchPhase.fromKind : PartialSignatureKind → Option SingleValidatorBatchPhase
  | .contributionProofs => some contributionProofs
  | .postConsensus => some postConsensus
  | _ => none

structure SingleValidatorBatchKey where
  phase : SingleValidatorBatchPhase
  slot : ℕ
  pubkey : PublicKeyBytes
deriving DecidableEq

inductive SingleValidatorBatchState where
  | pending
  | admitted
deriving DecidableEq

structure SingleValidatorBatchRecord where
  validatorIndex : UInt64
  committeeId : CommitteeId
  descriptor : List SyncCommitteeBatchEntry
  state : SingleValidatorBatchState

structure SingleValidatorBatchCall (Key : Type) where
  metadata : SignatureMetadata
  pubkey : PublicKeyBytes
  descriptor : List SyncCommitteeBatchEntry
  validatorSigningData : ValidatorSigningData Key
  currentMessage : PartialSignatureMessage

structure BatchEnv (Key : Type) where
  signer : Signer Key
  domainTypeForSlot : ℕ → DomainType

namespace SingleValidatorBatchCall

variable {Key : Type} (env : BatchEnv Key) (c : SingleValidatorBatchCall Key)

def check (now : Option ℕ) : List PartialSignatureMessage ⊕ SingleValidatorBatchKey :=
  if isStaleSlot now c.metadata.slot then .inl []
  else
    match SingleValidatorBatchPhase.fromKind c.metadata.kind with
    | none => .inl [c.currentMessage]
    | some phase =>
      if c.metadata.role ≠ .syncCommittee then .inl [c.currentMessage]
      else if c.pubkey ≠ c.validatorSigningData.validatorPubkey then .inl [c.currentMessage]
      else if !c.descriptor.any fun entry =>
          entry.signingRoot = c.validatorSigningData.root &&
            entry.signingRoot = c.currentMessage.signingRoot then .inl [c.currentMessage]
      else .inr ⟨phase, c.metadata.slot, c.pubkey⟩

def newRecord : SingleValidatorBatchRecord :=
  ⟨c.currentMessage.validatorIndex, c.metadata.committeeId, c.descriptor, .pending⟩

def agreesWith (record : SingleValidatorBatchRecord) : Bool :=
  record.committeeId = c.metadata.committeeId &&
    record.validatorIndex = c.currentMessage.validatorIndex && record.descriptor = c.descriptor

/-- The messages of a descriptor, each root signed once and repeated as often as the
descriptor says.  The first component holds the unique messages. -/
def expand : List PartialSignatureMessage → List SyncCommitteeBatchEntry →
    List PartialSignatureMessage × List PartialSignatureMessage
  | injection, [] => (injection, [])
  | injection, entry :: entries =>
    match injection.find? (·.signingRoot = entry.signingRoot) with
    | some message =>
      let rest := expand injection entries
      (rest.1, List.replicate entry.multiplicity message ++ rest.2)
    | none =>
      let message := c.validatorSigningData.partialSignatureMessage env.signer
        entry.signingRoot c.currentMessage.signer
      let rest := expand (injection ++ [message]) entries
      (rest.1, List.replicate entry.multiplicity message ++ rest.2)

theorem map_signingRoot_expand (injection : List PartialSignatureMessage)
    (entries : List SyncCommitteeBatchEntry) :
    (c.expand env injection entries).2.map PartialSignatureMessage.signingRoot =
      entries.flatMap fun entry => List.replicate entry.multiplicity entry.signingRoot := by
  induction entries generalizing injection with
  | nil => rfl
  | cons entry entries ih =>
    unfold expand
    cases hfind : injection.find? (·.signingRoot = entry.signingRoot) with
    | some message =>
      have hroot : message.signingRoot = entry.signingRoot := by
        simpa using List.find?_some hfind
      simp [ih, hroot]
    | none => simp [ih, ValidatorSigningData.partialSignatureMessage]

def outgoing : Except CreateMessageError SSVMessage :=
  createMessage env.domainTypeForSlot c.metadata (c.expand env [c.currentMessage] c.descriptor).2
    (.validator c.pubkey)

structure For (key : SingleValidatorBatchKey) : Prop where
  phase : SingleValidatorBatchPhase.fromKind c.metadata.kind = some key.phase
  role : c.metadata.role = .syncCommittee
  slot : c.metadata.slot = key.slot
  pubkey : c.pubkey = key.pubkey

variable {c}

theorem for_of_check {now : Option ℕ} {key : SingleValidatorBatchKey}
    (h : c.check now = .inr key) : c.For key := by
  unfold check at h
  split at h
  · cases h
  split at h
  · cases h
  rename_i phase hphase
  split_ifs at h with hrole
  cases h
  exact ⟨hphase, not_not.mp hrole, rfl, rfl⟩

theorem descriptor_of_agreesWith {r : SingleValidatorBatchRecord} (h : c.agreesWith r = true) :
    r.descriptor = c.descriptor := by
  simp only [agreesWith, Bool.and_eq_true, decide_eq_true_eq] at h
  exact h.2

theorem agreesWith_newRecord : c.agreesWith c.newRecord = true := by
  simp [agreesWith, newRecord]

end SingleValidatorBatchCall

/-! ## The shared records and the calls in progress -/

/-- Where a call is: it has its key, it holds a record of it, or it has returned messages to
hand to the collectors. -/
inductive BatchCallStage (Key : Type) where
  | idle
  | checked (c : SingleValidatorBatchCall Key) (key : SingleValidatorBatchKey) (h : c.For key)
  | holding (c : SingleValidatorBatchCall Key) (key : SingleValidatorBatchKey) (h : c.For key)
      (record : ℕ)
  | returned (messages : List PartialSignatureMessage)

/-- A packet as the message sender was handed it for a record, and whether it was admitted. -/
structure HandedPacket where
  key : SingleValidatorBatchKey
  record : ℕ
  packet : SSVMessage
  admitted : Bool

/-- All records that were made for a key are kept, as a reference to a record outlives its place
in the map. -/
structure SingleValidatorBatches (Key : Type) where
  clock : ℕ
  records : SingleValidatorBatchKey → List SingleValidatorBatchRecord
  entries : SingleValidatorBatchKey → Option ℕ
  calls : ℕ → BatchCallStage Key
  handed : List HandedPacket

/-- The clock moves on, a call takes one of its three steps, or the cleaner runs with a
reading of the clock that may be some slots old. -/
inductive SingleValidatorBatchEvent (Key : Type) where
  | tick (slots : ℕ)
  | check (i : ℕ) (c : SingleValidatorBatchCall Key) (readable : Bool)
  | getOrInsert (i : ℕ)
  | send (i : ℕ) (admits : Bool)
  | clean (age : ℕ)

namespace SingleValidatorBatches

variable {Key : Type} (env : BatchEnv Key)

def new (clock : ℕ) : SingleValidatorBatches Key :=
  ⟨clock, fun _ => [], fun _ => none, fun _ => .idle, []⟩

def setCall (st : SingleValidatorBatches Key) (i : ℕ) (stage : BatchCallStage Key) :
    SingleValidatorBatches Key :=
  { st with calls := Function.update st.calls i stage }

def setAdmitted (st : SingleValidatorBatches Key) (key : SingleValidatorBatchKey) (record : ℕ)
    (r : SingleValidatorBatchRecord) : SingleValidatorBatches Key :=
  { st with
    records := Function.update st.records key
      ((st.records key).set record { r with state := .admitted }) }

/-- The last step, under the lock of the record. -/
def sendLocked (st : SingleValidatorBatches Key) (i : ℕ) (c : SingleValidatorBatchCall Key)
    (key : SingleValidatorBatchKey) (record : ℕ) (r : SingleValidatorBatchRecord)
    (admits : Bool) : SingleValidatorBatches Key :=
  if !c.agreesWith r || r.state = .admitted then st.setCall i (.returned [c.currentMessage])
  else
    let messages := c.expand env [c.currentMessage] r.descriptor
    match createMessage env.domainTypeForSlot c.metadata messages.2 (.validator c.pubkey) with
    | .error _ => st.setCall i (.returned messages.1)
    | .ok packet =>
      { (if admits then st.setAdmitted key record r else st).setCall i (.returned messages.1) with
        handed := st.handed ++ [⟨key, record, packet, admits⟩] }

/-- Events that do not fit where a call is are ignored. -/
def step (st : SingleValidatorBatches Key) :
    SingleValidatorBatchEvent Key → SingleValidatorBatches Key
  | .tick slots => { st with clock := st.clock + slots }
  | .check i c readable =>
    match st.calls i with
    | .idle =>
      match h : c.check (if readable then some st.clock else none) with
      | .inl messages => st.setCall i (.returned messages)
      | .inr key => st.setCall i (.checked c key (c.for_of_check h))
    | _ => st
  | .getOrInsert i =>
    match st.calls i with
    | .checked c key h =>
      match st.entries key with
      | some record => st.setCall i (.holding c key h record)
      | none =>
        { st.setCall i (.holding c key h (st.records key).length) with
          records := Function.update st.records key (st.records key ++ [c.newRecord])
          entries := Function.update st.entries key (some (st.records key).length) }
    | _ => st
  | .send i admits =>
    match st.calls i with
    | .holding c key _ record =>
      match (st.records key)[record]? with
      | some r => st.sendLocked env i c key record r admits
      | none => st
    | _ => st
  | .clean age =>
    { st with
      entries := fun key =>
        if key.slot < cutoffAt (st.clock - age) then none else st.entries key }

/-! ## What a step can do -/

variable {env} {st st' : SingleValidatorBatches Key} {e : SingleValidatorBatchEvent Key}

/-- The call holds a record that it agrees with and that is not marked yet, and its packet can be
made. -/
structure Sends (env : BatchEnv Key) (st : SingleValidatorBatches Key) (i : ℕ)
    (key : SingleValidatorBatchKey) (record : ℕ) (r : SingleValidatorBatchRecord)
    (packet : SSVMessage) : Prop where
  records : (st.records key)[record]? = some r
  pending : r.state = .pending
  call : ∃ c h, st.calls i = .holding c key h record ∧ c.agreesWith r = true ∧
    c.outgoing env = .ok packet

/-- The clock and the map after a step in which no record is made: the cleaner may have removed
stale entries. -/
structure Keeps (st st' : SingleValidatorBatches Key) : Prop where
  clock_le : st.clock ≤ st'.clock
  entry_of : ∀ key n, st'.entries key = some n → st.entries key = some n
  entry_eq : ∀ key, cutoffAt st'.clock ≤ key.slot → st'.entries key = st.entries key

theorem Keeps.of_eq (hclock : st'.clock = st.clock) (hentries : st'.entries = st.entries) :
    Keeps st st' :=
  ⟨hclock.ge, fun _ _ h => hentries ▸ h, fun _ _ => congrFun hentries _⟩

/-- A step makes a record under a vacant key, hands over a packet and may mark its record, or
changes neither the records nor the packets. -/
inductive Effect (env : BatchEnv Key) (st : SingleValidatorBatches Key) :
    SingleValidatorBatchEvent Key → SingleValidatorBatches Key → Prop where
  | kept {e : SingleValidatorBatchEvent Key} {st' : SingleValidatorBatches Key}
      (hkeeps : Keeps st st') (hrecords : st'.records = st.records)
      (hhanded : st'.handed = st.handed) : Effect env st e st'
  | inserted {i : ℕ} {c : SingleValidatorBatchCall Key} {key : SingleValidatorBatchKey}
      {h : c.For key} (hcall : st.calls i = .checked c key h) (hentry : st.entries key = none) :
      Effect env st (.getOrInsert i)
        { st.setCall i (.holding c key h (st.records key).length) with
          records := Function.update st.records key (st.records key ++ [c.newRecord])
          entries := Function.update st.entries key (some (st.records key).length) }
  | sent {i : ℕ} {key : SingleValidatorBatchKey} {record : ℕ} {r : SingleValidatorBatchRecord}
      {packet : SSVMessage} {messages : List PartialSignatureMessage} (admits : Bool)
      (hsends : Sends env st i key record r packet) :
      Effect env st (.send i admits)
        { (if admits then st.setAdmitted key record r else st).setCall i (.returned messages) with
          handed := st.handed ++ [⟨key, record, packet, admits⟩] }

theorem effect_sendLocked {i : ℕ} {c : SingleValidatorBatchCall Key}
    {key : SingleValidatorBatchKey} {h : c.For key} {record : ℕ} {r : SingleValidatorBatchRecord}
    (hcall : st.calls i = .holding c key h record) (hr : (st.records key)[record]? = some r)
    (admits : Bool) :
    Effect env st (.send i admits) (st.sendLocked env i c key record r admits) := by
  rw [sendLocked]
  by_cases hskip : (!c.agreesWith r || r.state = .admitted) = true
  · rw [if_pos hskip]
    exact .kept (.of_eq rfl rfl) rfl rfl
  rw [if_neg hskip]
  simp only [Bool.or_eq_true, Bool.not_eq_true', decide_eq_true_eq, not_or,
    Bool.not_eq_false] at hskip
  obtain ⟨hagrees, hstate⟩ := hskip
  have hpending : r.state = .pending := by
    cases hcase : r.state with
    | pending => rfl
    | admitted => exact absurd hcase hstate
  dsimp only
  split
  · exact .kept (.of_eq rfl rfl) rfl rfl
  · rename_i packet hpacket
    rw [c.descriptor_of_agreesWith hagrees] at hpacket
    exact .sent admits ⟨hr, hpending, c, h, hcall, hagrees, hpacket⟩

theorem effect_step (env : BatchEnv Key) (st : SingleValidatorBatches Key)
    (e : SingleValidatorBatchEvent Key) : Effect env st e (st.step env e) := by
  have hsame : Effect env st e st := .kept (.of_eq rfl rfl) rfl rfl
  cases e with
  | tick slots =>
    exact .kept ⟨Nat.le_add_right _ _, fun _ _ h => h, fun _ _ => rfl⟩ rfl rfl
  | clean age =>
    refine .kept ⟨le_rfl, fun key n h => ?_, fun key hfresh => if_neg ?_⟩ rfl rfl
    · simp only [step] at h
      split_ifs at h
      exact h
    · exact not_lt.mpr ((cutoffAt_mono (Nat.sub_le _ _)).trans hfresh)
  | check i c readable =>
    simp only [step]
    split
    · split <;> exact .kept (.of_eq rfl rfl) rfl rfl
    · exact hsame
  | getOrInsert i =>
    simp only [step]
    split
    · rename_i hcall
      split
      · exact .kept (.of_eq rfl rfl) rfl rfl
      · rename_i hentry
        exact .inserted hcall hentry
    · exact hsame
  | send i admits =>
    simp only [step]
    split
    · rename_i hcall
      split
      · rename_i hr
        exact effect_sendLocked hcall hr admits
      · exact hsame
    · exact hsame

/-! ## What every run keeps -/

def multiplicityOf (descriptor : List SyncCommitteeBatchEntry) (root : Hash256) : ℕ :=
  ((descriptor.filter (·.signingRoot = root)).map (·.multiplicity)).sum

theorem count_flatMap_replicate (descriptor : List SyncCommitteeBatchEntry) (root : Hash256) :
    (descriptor.flatMap fun entry =>
      List.replicate entry.multiplicity entry.signingRoot).count root =
        multiplicityOf descriptor root := by
  induction descriptor with
  | nil => rfl
  | cons entry entries ih =>
    rw [List.flatMap_cons, List.count_append, ih, List.count_replicate, multiplicityOf,
      multiplicityOf]
    by_cases h : entry.signingRoot = root <;> simp [h]

/-- A receiver reads from the packet the phase, the slot and the validator of the key, and every
root as often as the descriptor says. -/
structure Carries (env : BatchEnv Key) (descriptor : List SyncCommitteeBatchEntry)
    (p : HandedPacket) : Prop where
  msgId_eq : p.packet.msgId = MessageId.new (env.domainTypeForSlot p.key.slot) .syncCommittee
    (.validator p.key.pubkey)
  content : ∃ content, PartialSignatureMessages.fromSszBytes (fun _ => true)
      p.packet.data.toList = some content ∧
    SingleValidatorBatchPhase.fromKind content.kind = some p.key.phase ∧
    content.slot = .ofNat p.key.slot ∧
    ∀ root, (content.messages.toList.map PartialSignatureMessage.signingRoot).count root =
      multiplicityOf descriptor root

theorem Sends.carries {i : ℕ} {p : HandedPacket} {r : SingleValidatorBatchRecord}
    (h : Sends env st i p.key p.record r p.packet) : Carries env r.descriptor p := by
  obtain ⟨c, hkey, -, hagrees, houtgoing⟩ := h.call
  obtain ⟨hid, content, hkind, hslot, hmessages, hread⟩ := createMessage_eq_ok houtgoing
  refine ⟨?_, content, hread, ?_, ?_, fun root => ?_⟩
  · rw [hid, hkey.slot, hkey.role, hkey.pubkey]
  · rw [hkind, hkey.phase]
  · rw [hslot, hkey.slot]
  · rw [hmessages, c.map_signingRoot_expand, count_flatMap_replicate,
      c.descriptor_of_agreesWith hagrees]

/-- The map refers to records that were made, and the packets are those of their records, which
are marked once a packet is admitted. -/
structure WellFormed (env : BatchEnv Key) (st : SingleValidatorBatches Key) : Prop where
  entry : ∀ key n, st.entries key = some n → n < (st.records key).length
  handed : ∀ p ∈ st.handed, ∃ r, (st.records p.key)[p.record]? = some r ∧
    (p.admitted = true → r.state = .admitted) ∧ Carries env r.descriptor p

/-- A record keeps its place and its descriptor, and stays admitted. -/
def Extends (st st' : SingleValidatorBatches Key) : Prop :=
  ∀ key (n : ℕ) (r : SingleValidatorBatchRecord), (st.records key)[n]? = some r →
    ∃ r' : SingleValidatorBatchRecord, (st'.records key)[n]? = some r' ∧
    r'.descriptor = r.descriptor ∧ (r.state = .admitted → r'.state = .admitted)

theorem Extends.entry (h : Extends st st') {key : SingleValidatorBatchKey} {n : ℕ}
    (hn : n < (st.records key).length) : n < (st'.records key).length := by
  obtain ⟨r', hr', -⟩ := h key n _ (List.getElem?_eq_getElem hn)
  exact (List.getElem?_eq_some_iff.mp hr').1

theorem Extends.handed (h : Extends st st') (hwf : st.WellFormed env) {p : HandedPacket}
    (hp : p ∈ st.handed) : ∃ r, (st'.records p.key)[p.record]? = some r ∧
      (p.admitted = true → r.state = .admitted) ∧ Carries env r.descriptor p := by
  obtain ⟨r, hr, hadmitted, hcarries⟩ := hwf.handed p hp
  obtain ⟨r', hr', hdescriptor, hadmitted'⟩ := h _ _ r hr
  exact ⟨r', hr', fun hp => hadmitted' (hadmitted hp), hdescriptor ▸ hcarries⟩

theorem getElem?_setAdmitted {key : SingleValidatorBatchKey} {record : ℕ}
    {r : SingleValidatorBatchRecord} (hr : (st.records key)[record]? = some r) :
    ((st.setAdmitted key record r).records key)[record]? = some { r with state := .admitted } := by
  have hlt := (List.getElem?_eq_some_iff.mp hr).1
  simp [setAdmitted, hlt]

theorem extends_setAdmitted {key : SingleValidatorBatchKey} {record : ℕ}
    {r : SingleValidatorBatchRecord} (hr : (st.records key)[record]? = some r) :
    Extends st (st.setAdmitted key record r) := by
  intro key' n r' hr'
  by_cases hkey : key' = key
  · subst hkey
    by_cases hn : n = record
    · subst hn
      obtain rfl := Option.some.inj (hr.symm.trans hr')
      exact ⟨_, getElem?_setAdmitted hr, rfl, fun _ => rfl⟩
    · refine ⟨r', ?_, rfl, id⟩
      simpa [setAdmitted, List.getElem?_set_ne (Ne.symm hn)] using hr'
  · exact ⟨r', by simpa [setAdmitted, hkey] using hr', rfl, id⟩

theorem Effect.extends (h : Effect env st e st') : Extends st st' := by
  intro key n r hr
  cases h with
  | kept hkeeps hrecords hhanded => exact ⟨r, hrecords ▸ hr, rfl, id⟩
  | inserted hcall hentry =>
    rename_i i c key' hkey
    refine ⟨r, ?_, rfl, id⟩
    change (Function.update st.records key' _ key)[n]? = some r
    by_cases hkey : key = key'
    · subst hkey
      rw [Function.update_self]
      exact List.getElem?_append_left (List.getElem?_eq_some_iff.mp hr).1 ▸ hr
    · rwa [Function.update_of_ne hkey]
  | sent admits hsends =>
    cases admits with
    | true => exact extends_setAdmitted hsends.records key n r hr
    | false => exact ⟨r, hr, rfl, id⟩

theorem Effect.wellFormed (h : Effect env st e st') (hwf : st.WellFormed env) :
    st'.WellFormed env := by
  have hextends := h.extends
  cases h with
  | kept hkeeps hrecords hhanded =>
    exact ⟨fun key n hn => hextends.entry (hwf.entry key n (hkeeps.entry_of key n hn)),
      fun p hp => hextends.handed hwf (hhanded ▸ hp)⟩
  | inserted hcall hentry =>
    rename_i i c key' hkey
    refine ⟨fun key n hn => ?_, fun p hp => hextends.handed hwf hp⟩
    by_cases hkey : key = key'
    · subst hkey
      cases (Function.update_self key _ st.entries).symm.trans hn
      simp
    · exact hextends.entry (hwf.entry key n ((Function.update_of_ne hkey _ _).symm.trans hn))
  | sent admits hsends =>
    rename_i i key record r packet messages
    refine ⟨fun key n hn => hextends.entry (hwf.entry key n ?_), fun p hp => ?_⟩
    · cases admits <;> exact hn
    rcases List.mem_append.mp hp with hp | hp
    · exact hextends.handed hwf hp
    obtain rfl := List.mem_singleton.mp hp
    have hcarries : Carries env r.descriptor ⟨key, record, packet, admits⟩ :=
      Sends.carries hsends
    cases admits with
    | true => exact ⟨_, getElem?_setAdmitted hsends.records, fun _ => rfl, hcarries⟩
    | false => exact ⟨_, hsends.records, fun h => absurd h Bool.false_ne_true, hcarries⟩

theorem wellFormed_new (env : BatchEnv Key) (clock : ℕ) : (new clock).WellFormed env := by
  constructor <;> simp [new]

theorem wellFormed_run (env : BatchEnv Key) (clock : ℕ)
    (es : List (SingleValidatorBatchEvent Key)) :
    (Machine.run (step env) (new clock) es).WellFormed env :=
  Machine.invariant (P := fun _ _ => True) (wellFormed_new env clock)
    (fun st e _ h => (effect_step env st e).wellFormed h)
    (Machine.steps_of_forall (fun _ _ _ => trivial) _)

/-! ## Looking again when the record is made

A call that makes a record only while its slot is not stale, as calls for a committee's
batch do, makes the only record that its key ever has. -/

def FreshInsert (st : SingleValidatorBatches Key) : SingleValidatorBatchEvent Key → Prop
  | .getOrInsert i => ∀ c key h, st.calls i = .checked c key h → st.entries key = none →
      cutoffAt st.clock ≤ key.slot
  | _ => True

structure OneRecord (env : BatchEnv Key) (st : SingleValidatorBatches Key) : Prop where
  wellFormed : st.WellFormed env
  length_le : ∀ key, (st.records key).length ≤ 1
  entry : ∀ key, cutoffAt st.clock ≤ key.slot → st.entries key = none → st.records key = []

theorem length_setAdmitted (key key' : SingleValidatorBatchKey) (record : ℕ)
    (r : SingleValidatorBatchRecord) :
    ((st.setAdmitted key record r).records key').length = (st.records key').length := by
  by_cases hkey : key' = key
  · subst hkey
    simp [setAdmitted]
  · simp [setAdmitted, hkey]

theorem OneRecord.of_length (h : st.OneRecord env) (hwf : st'.WellFormed env)
    (hkeeps : Keeps st st')
    (hlength : ∀ key, (st'.records key).length = (st.records key).length) :
    st'.OneRecord env := by
  refine ⟨hwf, fun key => (hlength key).trans_le (h.length_le key), fun key hfresh hentry => ?_⟩
  rw [hkeeps.entry_eq key hfresh] at hentry
  have hnil := h.entry key ((cutoffAt_mono hkeeps.clock_le).trans hfresh) hentry
  rw [← List.length_eq_zero_iff, hlength, hnil, List.length_nil]

theorem Effect.oneRecord (h : Effect env st e st') (he : st.FreshInsert e)
    (hone : st.OneRecord env) : st'.OneRecord env := by
  have hwf := h.wellFormed hone.wellFormed
  cases h with
  | kept hkeeps hrecords hhanded =>
    exact hone.of_length hwf hkeeps fun key => by rw [hrecords]
  | inserted hcall hentry =>
    rename_i i c key' hkey
    -- a record under a vacant key whose slot is not stale is the key's first
    have hnil := hone.entry key' (he c key' hkey hcall hentry) hentry
    refine ⟨hwf, fun key => ?_, fun key hfresh hnone => ?_⟩
    · by_cases h : key = key'
      · subst h
        simp [hnil]
      · simpa [h] using hone.length_le key
    · by_cases h : key = key'
      · subst h
        simp at hnone
      · simpa [h] using hone.entry key hfresh (by simpa [h] using hnone)
  | sent admits hsends =>
    cases admits with
    | true => exact hone.of_length hwf (.of_eq rfl rfl) fun key => length_setAdmitted _ key _ _
    | false => exact hone.of_length hwf (.of_eq rfl rfl) fun key => rfl

/-! ## Sent once -/

/-- After a packet was admitted, none is handed over for its key. -/
def SentOnce (handed : List HandedPacket) : Prop :=
  handed.Pairwise fun p q => p.key = q.key → p.admitted = false

instance (handed : List HandedPacket) : Decidable (SentOnce handed) :=
  inferInstanceAs (Decidable (handed.Pairwise fun p q => p.key = q.key → p.admitted = false))

theorem sentOnce_concat {handed : List HandedPacket} {p : HandedPacket} :
    SentOnce (handed ++ [p]) ↔
      SentOnce handed ∧ ∀ q ∈ handed, q.key = p.key → q.admitted = false := by
  simp [SentOnce, List.pairwise_append]

theorem Effect.sentOnce (h : Effect env st e st') (hone : st.OneRecord env)
    (honce : SentOnce st.handed) : SentOnce st'.handed := by
  cases h with
  | kept hkeeps hrecords hhanded => rwa [hhanded]
  | inserted hcall hentry => exact honce
  | sent admits hsends =>
    rename_i i key record r packet messages
    refine sentOnce_concat.mpr ⟨honce, fun p hp hkey => ?_⟩
    by_contra hadmitted
    rw [Bool.not_eq_false] at hadmitted
    obtain ⟨r', hr', hmark, -⟩ := hone.wellFormed.handed p hp
    rw [show p.key = key from hkey] at hr'
    have hlt := (List.getElem?_eq_some_iff.mp hr').1
    have hlt' := (List.getElem?_eq_some_iff.mp hsends.records).1
    have hlength := hone.length_le key
    obtain rfl : p.record = record := by omega
    cases hr'.symm.trans hsends.records
    cases hsends.pending.symm.trans (hmark hadmitted)

variable {es : List (SingleValidatorBatchEvent Key)} {clock : ℕ}

theorem oneRecord_run (h : Machine.Steps (step env) FreshInsert (new clock) es) :
    (Machine.run (step env) (new clock) es).OneRecord env ∧
      SentOnce (Machine.run (step env) (new clock) es).handed :=
  Machine.invariant
    (I := fun st : SingleValidatorBatches Key => st.OneRecord env ∧ SentOnce st.handed)
    ⟨⟨wellFormed_new env clock, by simp [new], by simp [new]⟩, List.Pairwise.nil⟩
    (fun st e he hst => ⟨(effect_step env st e).oneRecord he hst.1,
      (effect_step env st e).sentOnce hst.1 hst.2⟩) h

def isRefusal : SingleValidatorBatchEvent Key → Bool
  | .send _ false => true
  | _ => false

theorem admitted_run (env : BatchEnv Key) (clock : ℕ) (h : ∀ e ∈ es, isRefusal e = false) :
    ∀ p ∈ (Machine.run (step env) (new clock) es).handed, p.admitted = true := by
  refine Machine.invariant (P := fun _ e => isRefusal e = false)
    (I := fun st : SingleValidatorBatches Key => ∀ p ∈ st.handed, p.admitted = true) (by simp [new])
    (fun st e he hst p hp => ?_) (Machine.steps_of_forall (fun e hmem _ => h e hmem) _)
  have heffect := effect_step env st e
  generalize st.step env e = st' at heffect hp
  cases heffect with
  | kept hkeeps hrecords hhanded => exact hst p (hhanded ▸ hp)
  | inserted hcall hentry => exact hst p hp
  | sent admits hsends =>
    rcases List.mem_append.mp hp with hp | hp
    · exact hst p hp
    obtain rfl := List.mem_singleton.mp hp
    cases admits with
    | true => rfl
    | false => cases he

theorem step_getOrInsert (env : BatchEnv Key) {i : ℕ} {c : SingleValidatorBatchCall Key}
    {key : SingleValidatorBatchKey} {h : c.For key} (hcall : st.calls i = .checked c key h) :
    ∃ record, (st.step env (.getOrInsert i)).calls i = .holding c key h record ∧
      (st.step env (.getOrInsert i)).handed = st.handed ∧ (st.entries key = none →
        ((st.step env (.getOrInsert i)).records key)[record]? = some c.newRecord) := by
  cases hentry : st.entries key with
  | none => exact ⟨(st.records key).length, by simp [step, hcall, hentry, setCall]⟩
  | some record => exact ⟨record, by simp [step, hcall, hentry, setCall]⟩

theorem Sends.handed_step {i : ℕ} {key : SingleValidatorBatchKey} {record : ℕ}
    {r : SingleValidatorBatchRecord} {packet : SSVMessage}
    (h : Sends env st i key record r packet) (admits : Bool) :
    (st.step env (.send i admits)).handed = st.handed ++ [⟨key, record, packet, admits⟩] := by
  obtain ⟨c, hkey, hcall, hagrees, houtgoing⟩ := h.call
  rw [SingleValidatorBatchCall.outgoing, ← c.descriptor_of_agreesWith hagrees] at houtgoing
  simp [step, hcall, h.records, sendLocked, hagrees, h.pending, houtgoing]

/-- A call that looks for its record and then sends breaks the rule exactly if it makes a record
for a stale slot after a packet was admitted, and its own packet can be made. -/
theorem sentOnce_iff_freshInsert (hone : st.OneRecord env) (honce : SentOnce st.handed) {i : ℕ}
    {c : SingleValidatorBatchCall Key} {key : SingleValidatorBatchKey} {h : c.For key}
    (hcall : st.calls i = .checked c key h) (admits : Bool) :
    SentOnce ((st.step env (.getOrInsert i)).step env (.send i admits)).handed ↔
      st.FreshInsert (.getOrInsert i) ∨ (∀ p ∈ st.handed, p.key = key → p.admitted = false) ∨
        ∀ packet, c.outgoing env ≠ .ok packet := by
  obtain ⟨record, hholding, hhanded, hnew⟩ := step_getOrInsert env hcall
  constructor
  · intro hsent
    by_contra hnot
    simp only [not_or, not_forall, not_not] at hnot
    obtain ⟨hlate, ⟨p, hp, hpkey, hadmitted⟩, packet, hpacket⟩ := hnot
    have hentry : st.entries key = none := by
      by_contra hsome
      refine hlate fun c' key' h' hcall' hentry' => ?_
      cases hcall.symm.trans hcall'
      exact absurd hentry' hsome
    have hsends : Sends env (st.step env (.getOrInsert i)) i key record c.newRecord packet :=
      ⟨hnew hentry, rfl, c, h, hholding, c.agreesWith_newRecord, hpacket⟩
    rw [hsends.handed_step, hhanded, sentOnce_concat] at hsent
    exact hadmitted (hsent.2 p hp hpkey)
  · intro hcond
    have heffect := effect_step env (st.step env (.getOrInsert i)) (.send i admits)
    rcases hcond with hfresh | hcond
    · exact heffect.sentOnce ((effect_step env st _).oneRecord hfresh hone) (by rwa [hhanded])
    generalize (st.step env (.getOrInsert i)).step env (.send i admits) = st' at heffect
    cases heffect with
    | kept hkeeps hrecords hkept => rwa [hkept, hhanded]
    | sent admits hsends =>
      obtain ⟨c', h', hcall', -, houtgoing⟩ := hsends.call
      cases hholding.symm.trans hcall'
      rcases hcond with hnone | hnone
      · exact sentOnce_concat.mpr (by rw [hhanded]; exact ⟨honce, hnone⟩)
      · exact absurd houtgoing (hnone _)

/-- As long as records are made only for slots that are not stale, no packet is handed over for a
phase, slot and validator after one was admitted, so that there is only one if the sender refuses
none.  A call that makes its record later breaks this as soon as a packet was admitted before and
its own can be made.  A receiver reads from every packet each root as often as the descriptor of
its record says. -/
theorem single_validator_batch_sent_once (env : BatchEnv Key) (clock : ℕ)
    (es : List (SingleValidatorBatchEvent Key)) :
    (Machine.Steps (step env) FreshInsert (new clock) es →
      SentOnce (Machine.run (step env) (new clock) es).handed ∧
      ((∀ e ∈ es, isRefusal e = false) →
        (Machine.run (step env) (new clock) es).handed.Pairwise fun p q => p.key ≠ q.key) ∧
      ∀ i c key h admits, (Machine.run (step env) (new clock) es).calls i = .checked c key h →
        (SentOnce (Machine.run (step env) (new clock)
            (es ++ [.getOrInsert i, .send i admits])).handed ↔
          (Machine.run (step env) (new clock) es).FreshInsert (.getOrInsert i) ∨
          (∀ p ∈ (Machine.run (step env) (new clock) es).handed,
            p.key = key → p.admitted = false) ∨
          ∀ packet, c.outgoing env ≠ .ok packet)) ∧
    ∀ p ∈ (Machine.run (step env) (new clock) es).handed,
      ∃ r, ((Machine.run (step env) (new clock) es).records p.key)[p.record]? = some r ∧
        Carries env r.descriptor p := by
  constructor
  · intro hfresh
    obtain ⟨hone, honce⟩ := oneRecord_run hfresh
    refine ⟨honce, fun hadmits => ?_, fun i c key h admits hcall => ?_⟩
    · refine List.Pairwise.imp_of_mem ?_ honce
      intro p q hp hq hpq hkey
      have hadmitted := admitted_run env clock hadmits p hp
      rw [hpq hkey] at hadmitted
      cases hadmitted
    · rw [Machine.run_append]
      exact sentOnce_iff_freshInsert hone honce hcall admits
  · intro p hp
    obtain ⟨r, hr, -, hcarries⟩ := (wellFormed_run env clock es).handed p hp
    exact ⟨r, hr, hcarries⟩

end SingleValidatorBatches

namespace Sample

open SingleValidatorBatches

def batchEnv : BatchEnv Unit where
  signer := ⟨fun _ _ => ⟨List.replicate 96 0, length_zeroSignature⟩,
    ⟨List.replicate 96 0, length_zeroSignature⟩⟩
  domainTypeForSlot _ := ⟨[0, 0, 0, 0], rfl⟩

def syncCall : SingleValidatorBatchCall Unit where
  metadata := ⟨.postConsensus, .syncCommittee, 3, 5, Hash256.default⟩
  pubkey := ⟨List.replicate 48 0, length_zeroKey⟩
  descriptor := [⟨0, Hash256.default, 2⟩]
  validatorSigningData := ⟨Hash256.default, 1, ⟨List.replicate 48 0, length_zeroKey⟩, some ()⟩
  currentMessage := ⟨⟨List.replicate 96 0, length_zeroSignature⟩, Hash256.default, ⟨1⟩, 1⟩

def sharedRun (sends : List (ℕ × Bool)) : List (SingleValidatorBatchEvent Unit) :=
  [.check 0 syncCall true, .check 1 syncCall true, .getOrInsert 0, .getOrInsert 1] ++
    sends.map fun s => .send s.1 s.2

theorem freshInsert_sharedRun (sends : List (ℕ × Bool)) :
    Machine.Steps (step batchEnv) FreshInsert (new 5) (sharedRun sends) := by
  refine ⟨trivial, trivial, ?_, ?_, Machine.steps_of_forall (fun e he st => ?_) _⟩
  · rintro c key h hcall -
    cases hcall
    decide
  · rintro c key h hcall -
    cases hcall
    decide
  · obtain ⟨s, -, rfl⟩ := List.mem_map.mp he
    trivial

theorem single_validator_batch_sent_once_shared :
    ((Machine.run (step batchEnv) (new 5)
        (sharedRun [(0, false), (1, true), (0, true)])).handed.map HandedPacket.admitted =
          [false, true] ∧
      SentOnce (Machine.run (step batchEnv) (new 5)
        (sharedRun [(0, false), (1, true), (0, true)])).handed) ∧
    (Machine.run (step batchEnv) (new 5) (sharedRun [(1, true), (0, true)])).handed.length = 1 ∧
      (Machine.run (step batchEnv) (new 5)
        (sharedRun [(1, true), (0, true)])).handed.Pairwise fun p q => p.key ≠ q.key := by
  refine ⟨⟨by decide +kernel, ?_⟩, by decide +kernel, ?_⟩
  · exact ((single_validator_batch_sent_once batchEnv 5 _).1 (freshInsert_sharedRun _)).1
  · exact ((single_validator_batch_sent_once batchEnv 5 _).1 (freshInsert_sharedRun _)).2.1
      (by decide)

/-- Both calls find their slot fresh.  The first sends, the clock moves on, the cleaner
removes the record, and the second call makes and sends its own. -/
def racingRun : List (SingleValidatorBatchEvent Unit) :=
  [.check 0 syncCall true, .check 1 syncCall true, .getOrInsert 0, .send 0 true, .tick 2, .clean 0,
    .getOrInsert 1, .send 1 true]

theorem single_validator_batch_sent_twice :
    (Machine.run (step batchEnv) (new 5) racingRun).handed.map
      (fun p => (p.key, p.admitted)) =
        [(⟨.postConsensus, 5, syncCall.pubkey⟩, true),
          (⟨.postConsensus, 5, syncCall.pubkey⟩, true)] ∧
    ¬SentOnce (Machine.run (step batchEnv) (new 5) racingRun).handed := by
  decide +kernel

end Sample

end Anchor
