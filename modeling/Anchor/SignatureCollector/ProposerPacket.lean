import Mathlib
import Anchor.SignatureCollector.Evidence
import Anchor.SignatureCollector.Retention

/-!
# Proposer packets

A proposer signs a block and the envelope of its payload in one packet.  The collector of
the envelope is registered with the root of the block as required companion, so that it
counts a share only with the evidence that the same packet had a share for that block.
Other packets carry no such evidence.

Shares reach the collectors from packets that the validator accepted and from the operator
itself.  They may come in any order, more than once or not at all.
-/

namespace Anchor

open BlsLagrange SignatureCollectorState Ssz

/-! ## Receiving packets -/

namespace PartialSignatureMessages

theorem signer_of_validate {p : PartialSignatureMessages} {i : OperatorId}
    (h : p.validate = .ok i) : ∀ m ∈ p.messages.toList, m.signer = i := by
  unfold validate at h
  split at h
  · cases h
  rename_i first rest hmessages
  split_ifs at h with hzero hother
  cases h
  intro m hm
  rw [hmessages] at hm
  rcases List.mem_cons.mp hm with rfl | hm
  · rfl
  · by_contra hne
    exact hother (List.any_eq_true.mpr ⟨m, hm, by simpa using hne⟩)

def companionRoot (packet : PartialSignatureMessages) (message : PartialSignatureMessage) :
    Option Hash256 :=
  if packet.messages.toList.length = 2 then
    (packet.messages.toList.find? fun other => other.signingRoot ≠ message.signingRoot ∧
      other.validatorIndex = message.validatorIndex ∧ other.signer = message.signer).map
        (·.signingRoot)
  else none

def receivePartialSignatures (packet : PartialSignatureMessages) :
    List (PartialSignatureMessage × Option Hash256) :=
  packet.messages.toList.map fun message => (message, none)

def receiveProposerPartialSignatures (packet : PartialSignatureMessages) :
    List (PartialSignatureMessage × Option Hash256) :=
  if packet.kind ≠ .postConsensus then packet.receivePartialSignatures
  else packet.messages.toList.map fun message => (message, packet.companionRoot message)

end PartialSignatureMessages

def Paired (messages : List PartialSignatureMessage) (m : PartialSignatureMessage)
    (b : Hash256) : Prop :=
  ∃ other : PartialSignatureMessage, (messages = [m, other] ∨ messages = [other, m]) ∧
    other.signingRoot = b ∧ b ≠ m.signingRoot ∧ other.validatorIndex = m.validatorIndex ∧
    other.signer = m.signer

namespace Paired

variable {messages : List PartialSignatureMessage} {m m' : PartialSignatureMessage}
  {b b' : Hash256}

theorem mem (h : Paired messages m b) : m ∈ messages := by
  obtain ⟨other, rfl | rfl, -⟩ := h <;> simp

theorem length_eq (h : Paired messages m b) : messages.length = 2 := by
  obtain ⟨other, rfl | rfl, -⟩ := h <;> rfl

theorem companion_unique (h : Paired messages m b) (h' : Paired messages m' b')
    (hroot : m'.signingRoot = m.signingRoot) : b' = b := by
  obtain ⟨other, hmessages, rfl, hne, -⟩ := h
  obtain ⟨other', hmessages', rfl, hne', -⟩ := h'
  rcases hmessages with rfl | rfl <;> rcases hmessages' with heq | heq <;> cases heq
  · rfl
  · exact absurd hroot hne
  · exact absurd hroot hne
  · rfl

end Paired

theorem PartialSignatureMessages.paired_of_companionRoot {packet : PartialSignatureMessages}
    {m : PartialSignatureMessage} {b : Hash256} (hm : m ∈ packet.messages.toList)
    (h : packet.companionRoot m = some b) : Paired packet.messages.toList m b := by
  unfold companionRoot at h
  split_ifs at h with hlength
  obtain ⟨other, hfind, rfl⟩ := Option.map_eq_some_iff.mp h
  have hother := List.mem_of_find?_eq_some hfind
  obtain ⟨hroot, hindex, hsigner⟩ : other.signingRoot ≠ m.signingRoot ∧
      other.validatorIndex = m.validatorIndex ∧ other.signer = m.signer := by
    simpa using List.find?_some hfind
  refine ⟨other, ?_, rfl, hroot, hindex, hsigner⟩
  obtain ⟨x, y, hxy⟩ := List.length_eq_two.mp hlength
  rw [hxy] at hm hother ⊢
  simp only [List.mem_cons, List.not_mem_nil, or_false] at hm hother
  rcases hm with rfl | rfl <;> rcases hother with rfl | rfl
  · exact absurd rfl hroot
  · exact Or.inl rfl
  · exact Or.inr rfl
  · exact absurd rfl hroot

/-- A packet that the validator accepted, with what surrounded it. -/
structure ReceivedPacket {K : Type} (cfg : ValidatorConfig K) where
  validator : Validator cfg
  reception : Reception K
  signed : SignedSSVMessage
  packet : PartialSignatureMessages
  accepted : validator.answer reception signed = .ok (.partialSignatureMessages packet)

namespace DutyContext

variable {K : Type} {ctx : DutyContext K} {signed : SignedSSVMessage}
  {p : PartialSignatureMessages} {i : OperatorId}

theorem signer_of_packetSigner (h : packetSigner p = .ok i) :
    ∀ m ∈ p.messages.toList, m.signer = i := by
  unfold packetSigner at h
  split at h
  · cases h
  · cases h
  · cases h
  · rename_i hvalidate
    cases h
    exact PartialSignatureMessages.signer_of_validate hvalidate

theorem signer_of_semantics (h : ctx.validatePartialSignatureMessageSemantics signed p = .ok i) :
    ∀ m ∈ p.messages.toList, m.signer = i := by
  unfold validatePartialSignatureMessageSemantics at h
  split at h
  · simp only [Checks.bind_eq_ok, Checks.require_eq_ok_iff] at h
    obtain ⟨⟨⟩, -, ⟨⟩, -, inner, hinner, ⟨⟩, hsame, -, -, -, -, heq⟩ := h
    cases heq
    intro m hm
    exact (signer_of_packetSigner hinner m hm).trans (by simpa using hsame)
  · cases h

end DutyContext

namespace ReceivedPacket

variable {K : Type} {cfg : ValidatorConfig K} (r : ReceivedPacket cfg)

/-- The receiver passes a proposer's packet on apart. -/
def shares : List (PartialSignatureMessage × Option Hash256) :=
  if r.signed.ssvMessage.msgId.role = some .proposer then
    r.packet.receiveProposerPartialSignatures
  else r.packet.receivePartialSignatures

theorem exists_signer : ∃ i, r.signed.operatorIds.toList = [i] ∧
    ∀ m ∈ r.packet.messages.toList, m.signer = i := by
  obtain ⟨ctx, haccepts⟩ := Validator.answer_eq_ok_iff.mp r.accepted
  obtain ⟨-, -, i, hverdict⟩ :=
    (ctx.verdict_partialSignatureMessages_iff r.signed).mp haccepts.verdict_eq
  obtain ⟨hrules, hsigners⟩ := ctx.signers_of_partialVerdict r.signed hverdict
  obtain ⟨-, -, hsemantics, -⟩ := (ctx.packetRules_eq_ok_iff r.signed).mp hrules
  exact ⟨i, hsigners, DutyContext.signer_of_semantics hsemantics⟩

theorem paired_of_mem_shares {m : PartialSignatureMessage} {b : Hash256}
    (h : (m, some b) ∈ r.shares) : r.signed.ssvMessage.msgId.role = some .proposer ∧
      r.packet.kind = .postConsensus ∧ Paired r.packet.messages.toList m b := by
  unfold shares at h
  split_ifs at h with hrole
  · unfold PartialSignatureMessages.receiveProposerPartialSignatures at h
    split_ifs at h with hkind
    · simp [PartialSignatureMessages.receivePartialSignatures] at h
    · obtain ⟨m', hm', heq⟩ := List.mem_map.mp h
      obtain ⟨rfl, hcompanion⟩ := Prod.mk.inj heq
      exact ⟨hrole, not_not.mp hkind,
        PartialSignatureMessages.paired_of_companionRoot hm' hcompanion⟩
  · simp [PartialSignatureMessages.receivePartialSignatures] at h

end ReceivedPacket

/-! ## Signing packets -/

/-- The errors of `sign_proposer_packet` that are not those of its queues. -/
inductive CollectionError where
  | invalidProposerPacket
  | ownOperatorIdUnknown
deriving DecidableEq

/-- What `sign_proposer_packet` registers, with the required companions, what it sends, and the
shares it passes to its own collectors. -/
structure ProposerPacket where
  registrations : List (Hash256 × Option Hash256)
  messages : List PartialSignatureMessage
  injected : List (PartialSignatureMessage × Option Hash256)

section Own

variable {Key : Type} (signer : Signer Key)

def signProposerPacket (operatorId : Option OperatorId) (metadata : SignatureMetadata)
    (pubkey : PublicKeyBytes) (block : ValidatorSigningData Key)
    (envelope : Option (ValidatorSigningData Key)) : Except CollectionError ProposerPacket :=
  if metadata.role ≠ .proposer ∨ metadata.kind ≠ .postConsensus ∨
      pubkey ≠ block.validatorPubkey ∨
      envelope.any (fun envelope => envelope.index ≠ block.index ∨
        envelope.validatorPubkey ≠ block.validatorPubkey ∨ envelope.root = block.root) then
    .error .invalidProposerPacket
  else
    match operatorId with
    | none => .error .ownOperatorIdUnknown
    | some own =>
      let first := block.partialSignatureMessage signer block.root own
      let second := envelope.map fun envelope =>
        (envelope, envelope.partialSignatureMessage signer envelope.root own)
      .ok {
        registrations := (envelope.map fun envelope => (envelope.root, some block.root)).toList ++
          [(block.root, none)]
        messages := first :: (second.map Prod.snd).toList
        injected :=
          (if block.share.isSome then [(first, envelope.map (·.root))] else []) ++
            ((second.filter (·.1.share.isSome)).map fun e => (e.2, some block.root)).toList }

variable {envelope : Option (ValidatorSigningData Key)}

section

variable {own : OperatorId} {metadata : SignatureMetadata} {pubkey : PublicKeyBytes}
  {block : ValidatorSigningData Key} {packet : ProposerPacket}
  (h : signProposerPacket signer (some own) metadata pubkey block envelope = .ok packet)
include h

theorem paired_of_mem_injected
    {m : PartialSignatureMessage} {b : Hash256} (hm : (m, some b) ∈ packet.injected) :
    m.signer = own ∧ Paired packet.messages m b := by
  unfold signProposerPacket at h
  split at h
  · cases h
  rename_i hinvalid
  cases h
  simp only [not_or] at hinvalid
  obtain ⟨-, -, -, henvelope⟩ := hinvalid
  cases envelope with
  | none =>
    cases block.share <;> simp at hm
  | some envelope =>
    obtain ⟨hindex, -, hroot⟩ : envelope.index = block.index ∧
        envelope.validatorPubkey = block.validatorPubkey ∧ envelope.root ≠ block.root := by
      simpa using henvelope
    rcases List.mem_append.mp hm with hm | hm
    · -- the share for the block
      split_ifs at hm
      · cases List.mem_singleton.mp hm
        exact ⟨rfl, _, Or.inl rfl, rfl, hroot, hindex, rfl⟩
      · cases hm
    · -- the share for the envelope
      cases hshare : envelope.share with
      | none => simp [hshare] at hm
      | some key =>
        obtain ⟨rfl, rfl⟩ : envelope.partialSignatureMessage signer envelope.root own = m ∧
            block.root = b := by
          simpa [hshare] using hm
        exact ⟨rfl, _, Or.inr rfl, rfl, hroot.symm, hindex.symm, rfl⟩

/-- A receiver derives the same companions from a packet as its sender. -/
theorem receiveProposerPartialSignatures_of_signed (hblock : block.share.isSome = true)
    (henvelope : ∀ data, envelope = some data → data.share.isSome = true)
    {p : PartialSignatureMessages} (hkind : p.kind = .postConsensus)
    (hmessages : p.messages.toList = packet.messages) :
    p.receiveProposerPartialSignatures = packet.injected := by
  unfold signProposerPacket at h
  split at h
  · cases h
  rename_i hinvalid
  cases h
  simp only [not_or] at hinvalid
  obtain ⟨-, -, -, hpair⟩ := hinvalid
  rw [PartialSignatureMessages.receiveProposerPartialSignatures, if_neg (not_not.mpr hkind)]
  unfold PartialSignatureMessages.companionRoot
  rw [hmessages]
  cases envelope with
  | none => simp
  | some envelope =>
    obtain ⟨hindex, -, hroot⟩ : envelope.index = block.index ∧
        envelope.validatorPubkey = block.validatorPubkey ∧ envelope.root ≠ block.root := by
      simpa using hpair
    have hshare := henvelope envelope rfl
    simp [hshare, Option.filter, ValidatorSigningData.partialSignatureMessage, hindex, hroot,
      hroot.symm]

end

/-- Where the shares of a collector come from: packets that were received, packets of
`sign_proposer_packet`, and shares of `sign_and_collect` for some roots. -/
inductive ShareSource {K : Type} (cfg : ValidatorConfig K) (Key : Type) where
  | received (r : ReceivedPacket cfg)
  | proposer (metadata : SignatureMetadata) (pubkey : PublicKeyBytes)
      (block : ValidatorSigningData Key) (envelope : Option (ValidatorSigningData Key))
  | collect (data : ValidatorSigningData Key) (roots : List Hash256)

structure PairPacket where
  signer : OperatorId
  slot : ℕ
  messages : List PartialSignatureMessage

namespace ShareSource

variable {K : Type} {cfg : ValidatorConfig K} (own : OperatorId)

def shares : ShareSource cfg Key → List (PartialSignatureMessage × Option Hash256)
  | .received r => r.shares
  | .proposer metadata pubkey block envelope =>
    match signProposerPacket signer (some own) metadata pubkey block envelope with
    | .ok packet => packet.injected
    | .error _ => []
  | .collect data roots =>
    if data.share.isSome then
      roots.map fun root => (data.partialSignatureMessage signer root own, none)
    else []

/-- The packet of two entries for a proposer's duty after consensus that a source is: one
that was accepted, with its authenticated signer, or one of the operator itself. -/
def pairPacket : ShareSource cfg Key → Option PairPacket
  | .received r =>
    if r.signed.ssvMessage.msgId.role = some .proposer ∧ r.packet.kind = .postConsensus ∧
        r.packet.messages.toList.length = 2 then
      r.signed.operatorIds.toList.head?.map fun i =>
        ⟨i, r.packet.slot.toNat, r.packet.messages.toList⟩
    else none
  | .proposer metadata pubkey block envelope =>
    match signProposerPacket signer (some own) metadata pubkey block envelope with
    | .ok packet =>
      if packet.messages.length = 2 then some ⟨own, metadata.slot, packet.messages⟩ else none
    | .error _ => none
  | .collect _ _ => none

/-- A source holds the share of an operator next to one for a companion root. -/
def Evidence (key : CollectorKey) (b : Hash256) (i : OperatorId) (s : FixedBytes 96)
    (source : ShareSource cfg Key) : Prop :=
  ∃ p, source.pairPacket signer own = some p ∧ p.signer = i ∧
    Paired p.messages ⟨s, key.1, i, key.2⟩ b

variable {signer own}

theorem evidence_of_mem_shares {source : ShareSource cfg Key} {key : CollectorKey} {b : Hash256}
    {i : OperatorId} {s : FixedBytes 96}
    (h : (⟨s, key.1, i, key.2⟩, some b) ∈ source.shares signer own) :
    source.Evidence signer own key b i s := by
  cases source with
  | received r =>
    obtain ⟨hrole, hkind, hpaired⟩ := r.paired_of_mem_shares h
    obtain ⟨j, hsigners, hentries⟩ := r.exists_signer
    obtain rfl : i = j := hentries _ hpaired.mem
    refine ⟨⟨i, r.packet.slot.toNat, r.packet.messages.toList⟩, ?_, rfl, hpaired⟩
    simp [pairPacket, hrole, hkind, hpaired.length_eq, hsigners]
  | proposer metadata pubkey block envelope =>
    cases hpacket : signProposerPacket signer (some own) metadata pubkey block envelope with
    | error e => simp [shares, hpacket] at h
    | ok packet =>
      simp only [shares, hpacket] at h
      obtain ⟨hown, hpaired⟩ := paired_of_mem_injected signer hpacket h
      refine ⟨⟨own, metadata.slot, packet.messages⟩, ?_, hown.symm, hpaired⟩
      simp [pairPacket, hpacket, hpaired.length_eq]
  | collect data roots =>
    simp only [shares] at h
    split_ifs at h
    · simp at h
    · cases h

end ShareSource

end Own

/-- A message to the collector of a root and validator carries a share of one of the sources;
registrations may be any. -/
def CollectorMessageKind.DeliveredBy {K Key : Type} {cfg : ValidatorConfig K}
    (signer : Signer Key) (own : OperatorId) (sources : List (ShareSource cfg Key))
    (key : CollectorKey) : CollectorMessageKind (FixedBytes 96) → Prop
  | registerNotifier _ _ _ _ => True
  | partialSignature i s c =>
    ∃ source ∈ sources, (⟨s, key.1, i, key.2⟩, c) ∈ source.shares signer own

/-- What an honest operator sends about a root: its one share, and at most one packet of two
entries per slot, where the root fixes the slot. -/
structure HonestSender {K Key : Type} {cfg : ValidatorConfig K} (signer : Signer Key)
    (own : OperatorId) (sources : List (ShareSource cfg Key)) (key : CollectorKey)
    (i : OperatorId) (s : FixedBytes 96) : Prop where
  share : ∀ source ∈ sources, ∀ t c, (⟨t, key.1, i, key.2⟩, c) ∈ source.shares signer own → t = s
  once : ∀ source ∈ sources, ∀ source' ∈ sources, ∀ p p',
    source.pairPacket signer own = some p → source'.pairPacket signer own = some p' →
      p.signer = i → p'.signer = i → p.slot = p'.slot → p.messages = p'.messages
  slot : ∀ source ∈ sources, ∀ source' ∈ sources, ∀ p p',
    source.pairPacket signer own = some p → source'.pairPacket signer own = some p' →
      p.signer = i → p'.signer = i → key.1 ∈ p.messages.map (·.signingRoot) →
        key.1 ∈ p'.messages.map (·.signingRoot) → p.slot = p'.slot

section Evidence

variable {F P G K Key : Type} {cfg : ValidatorConfig K} {signer : Signer Key} {own : OperatorId}
  {sources : List (ShareSource cfg Key)} {key : CollectorKey} {i : OperatorId}
  {s : FixedBytes 96}

theorem HonestSender.companion_unique (h : HonestSender signer own sources key i s)
    {source source' : ShareSource cfg Key} (hsource : source ∈ sources)
    (hsource' : source' ∈ sources) {t t' : FixedBytes 96} {b b' : Hash256}
    (hb : source.Evidence signer own key b i t) (hb' : source'.Evidence signer own key b' i t') :
    b' = b := by
  obtain ⟨p, hp, hsigner, hpaired⟩ := hb
  obtain ⟨p', hp', hsigner', hpaired'⟩ := hb'
  have hslot : p.slot = p'.slot :=
    h.slot source hsource source' hsource' p p' hp hp' hsigner hsigner'
      (List.mem_map_of_mem hpaired.mem) (List.mem_map_of_mem hpaired'.mem)
  have hmessages := h.once source hsource source' hsource' p p' hp hp' hsigner hsigner' hslot
  rw [← hmessages] at hpaired'
  exact hpaired.companion_unique hpaired' rfl

theorem HonestSender.steady (h : HonestSender signer own sources key i s)
    {env : CollectorEnv P G (FixedBytes 96)}
    {messages : List (CollectorMessageKind (FixedBytes 96))}
    (hdelivered : ∀ x ∈ messages, x.DeliveredBy signer own sources key)
    (hvalid : ∀ notify c threshold validatorPubkey keys,
      .registerNotifier notify c threshold validatorPubkey ∈ messages →
        env.fetch validatorPubkey = some keys → env.shareIsValid keys key.1 i s = true)
    {b : Hash256} (hb : .partialSignature i s (some b) ∈ messages) :
    Steady env key.1 i s b messages := by
  refine ⟨?_, hvalid⟩
  intro t c hmem
  obtain ⟨source, hsource, hshare⟩ := hdelivered _ hmem
  refine ⟨h.share source hsource t c hshare, ?_⟩
  rintro r rfl
  obtain ⟨source', hsource', hshare'⟩ := hdelivered _ hb
  exact h.companion_unique hsource' hsource (ShareSource.evidence_of_mem_shares hshare')
    (ShareSource.evidence_of_mem_shares hshare)

/-- Whenever the shares of a collector with a required companion are counted, each of them
was next to that companion in one packet of its operator.  The evidence of an honest operator
stays once it was told, until the collector is complete or asks for another companion. -/
theorem companion_evidence [Field F] [DecidableEq F] [AddCommGroup G] [Module F G]
    (signer : Signer Key) (own : OperatorId)
    (sources : List (ShareSource cfg Key)) (env : CollectorEnv P G (FixedBytes 96))
    (key : CollectorKey) (messages : List (CollectorMessageKind (FixedBytes 96)))
    (m : CollectorMessageKind (FixedBytes 96)) (st : SignatureCollectorState P (FixedBytes 96))
    (hdelivered : ∀ x ∈ messages ++ [m], x.DeliveredBy signer own sources key)
    (hcounted : counted F env key.1 messages m = some st) :
    (∀ b, st.required = some b → ∀ e ∈ st.signatureShare.entries, ∃ source ∈ sources,
      source.Evidence signer own key b e.1 e.2.signature) ∧
    ∀ i s b, HonestSender signer own sources key i s →
      (∀ notify c threshold validatorPubkey keys,
        .registerNotifier notify c threshold validatorPubkey ∈ messages ++ [m] →
          env.fetch validatorPubkey = some keys → env.shareIsValid keys key.1 i s = true) →
      .partialSignature i s (some b) ∈ messages ++ [m] → st.fullSignature = none →
      (∀ r, st.required = some r → r = b) → st.Holds i s b := by
  have hbacked := backed_counted hcounted
  constructor
  · intro b hb e he
    have hmem := hbacked.companion e he b (hbacked.needed b hb e he)
    obtain ⟨source, hsource, hshare⟩ := hdelivered _ hmem
    exact ⟨source, hsource, ShareSource.evidence_of_mem_shares hshare⟩
  · intro i s b hhonest hvalid hb hopen hrequired
    exact keeps_counted (hhonest.steady hdelivered hvalid hb) hcounted hopen hrequired hb

end Evidence

namespace Sample

def pairMessages : PartialSignatureMessages :=
  ⟨.postConsensus, 0, ⟨[partialSignature ⟨1⟩ 9, partialSignature ⟨1⟩ 7], by
    simp [partialSignatureMessagesLen]⟩⟩

def signedPair : SignedSSVMessage :=
  signedBy ⟨[⟨1⟩], SignedSSVMessage.length_singleton_le ⟨1⟩⟩
    ⟨.ssvPartialSignatureMsgType, validatorId .proposer,
      (VariableList.new? pairMessages.asSszBytes).getD VariableList.empty⟩

theorem accepted_pair : (Validator.new validatorConfig).answer (reception 1) signedPair =
    .ok (.partialSignatureMessages pairMessages) := by
  decide +kernel

def receivedPair : ReceivedPacket validatorConfig :=
  ⟨Validator.new validatorConfig, reception 1, signedPair, pairMessages, accepted_pair⟩

def lenientEnv : CollectorEnv ℚ ℚ (FixedBytes 96) where
  bls := ⟨fun _ => some 1, fun _ => some 1,
    fun _ => ⟨List.replicate 96 0, length_zeroSignature⟩, fun _ _ _ => true⟩
  walk := id
  getSharePubkeysForValidator key := some ⟨[(⟨1⟩, key)], List.pairwise_singleton _ _⟩

theorem shareIsValid_lenientEnv {key : PublicKeyBytes}
    {keys : SortedMap OperatorId PublicKeyBytes} (h : lenientEnv.fetch key = some keys)
    (root : Hash256) (s : FixedBytes 96) : lenientEnv.shareIsValid keys root ⟨1⟩ s = true := by
  cases h
  rfl

def envelopeKey : CollectorKey :=
  ((partialSignature ⟨1⟩ 7).signingRoot, (partialSignature ⟨1⟩ 7).validatorIndex)

def envelopeRegistration : CollectorMessageKind (FixedBytes 96) :=
  .registerNotifier none (some (partialSignature ⟨1⟩ 9).signingRoot) 3
    ⟨List.replicate 48 0, length_zeroKey⟩

def envelopeShare : CollectorMessageKind (FixedBytes 96) :=
  .partialSignature ⟨1⟩ (partialSignature ⟨1⟩ 7).partialSignature
    (some (partialSignature ⟨1⟩ 9).signingRoot)

def idleSigner : Signer Unit :=
  ⟨fun _ _ => (partialSignature ⟨1⟩ 7).partialSignature, (partialSignature ⟨1⟩ 7).partialSignature⟩

def signingData (root : UInt8) : ValidatorSigningData Unit :=
  ⟨(partialSignature ⟨1⟩ root).signingRoot, 0, ⟨List.replicate 48 0, length_zeroKey⟩, some ()⟩

theorem receive_signed_pair : pairMessages.receiveProposerPartialSignatures =
    [(partialSignature ⟨1⟩ 9, some (partialSignature ⟨1⟩ 7).signingRoot),
      (partialSignature ⟨1⟩ 7, some (partialSignature ⟨1⟩ 9).signingRoot)] :=
  receiveProposerPartialSignatures_of_signed idleSigner
    (show signProposerPacket idleSigner (some ⟨1⟩) ⟨.postConsensus, .proposer, 3, 0,
      Hash256.default⟩ (signingData 9).validatorPubkey (signingData 9) (some (signingData 7)) =
        .ok ⟨_, _, _⟩ from rfl) rfl (fun data h => by cases h; rfl) rfl rfl

theorem companion_evidence_pair : ∃ st,
    counted ℚ lenientEnv envelopeKey.1 [envelopeRegistration] envelopeShare = some st ∧
      st.Holds ⟨1⟩ (partialSignature ⟨1⟩ 7).partialSignature (partialSignature ⟨1⟩ 9).signingRoot ∧
        ∀ e ∈ st.signatureShare.entries, ∃ source ∈ [ShareSource.received receivedPair],
          source.Evidence idleSigner ⟨2⟩ envelopeKey (partialSignature ⟨1⟩ 9).signingRoot e.1
            e.2.signature := by
  have hshares : (ShareSource.received receivedPair).shares idleSigner ⟨2⟩ =
      [(partialSignature ⟨1⟩ 9, some (partialSignature ⟨1⟩ 7).signingRoot),
        (partialSignature ⟨1⟩ 7, some (partialSignature ⟨1⟩ 9).signingRoot)] := by
    decide +kernel
  have hdelivered : ∀ x ∈ [envelopeRegistration] ++ [envelopeShare],
      x.DeliveredBy idleSigner ⟨2⟩ [ShareSource.received receivedPair] envelopeKey := by
    intro x hx
    simp only [List.singleton_append, List.mem_cons, List.not_mem_nil, or_false] at hx
    rcases hx with rfl | rfl
    · trivial
    · refine ⟨_, List.mem_singleton_self _, ?_⟩
      rw [hshares]
      exact List.mem_cons_of_mem _ (List.mem_singleton_self _)
  have hhonest : HonestSender idleSigner ⟨2⟩ [ShareSource.received receivedPair] envelopeKey ⟨1⟩
      (partialSignature ⟨1⟩ 7).partialSignature := by
    refine ⟨?_, ?_, ?_⟩
    · intro source hsource t c hmem
      rw [List.mem_singleton.mp hsource, hshares] at hmem
      simp only [List.mem_cons, List.not_mem_nil, or_false, Prod.mk.injEq] at hmem
      rcases hmem with ⟨heq, -⟩ | ⟨heq, -⟩ <;> exact congrArg (·.partialSignature) heq
    · intro source hsource source' hsource' p p' hp hp' _ _ _
      rw [List.mem_singleton.mp hsource] at hp
      rw [List.mem_singleton.mp hsource', hp] at hp'
      rw [Option.some.inj hp']
    · intro source hsource source' hsource' p p' hp hp' _ _ _ _
      rw [List.mem_singleton.mp hsource] at hp
      rw [List.mem_singleton.mp hsource', hp] at hp'
      rw [Option.some.inj hp']
  have hstate : (counted ℚ lenientEnv envelopeKey.1 [envelopeRegistration] envelopeShare).map
      (fun st => (st.required, st.fullSignature)) =
        some (some (partialSignature ⟨1⟩ 9).signingRoot, none) := by
    decide +kernel
  obtain ⟨st, hst, hfields⟩ := Option.map_eq_some_iff.mp hstate
  obtain ⟨hrequired, hopen⟩ := Prod.mk.inj hfields
  obtain ⟨hsound, hkept⟩ := companion_evidence idleSigner ⟨2⟩ [ShareSource.received receivedPair]
    lenientEnv envelopeKey [envelopeRegistration] envelopeShare st hdelivered hst
  refine ⟨st, hst, ?_, hsound _ hrequired⟩
  refine hkept ⟨1⟩ _ _ hhonest ?_ (by simp [envelopeShare]) hopen ?_
  · intro _ _ _ _ _ _ hkeys
    exact shareIsValid_lenientEnv hkeys _ _
  · intro r hr
    exact Option.some.inj (hr.symm.trans hrequired)

end Sample

end Anchor
