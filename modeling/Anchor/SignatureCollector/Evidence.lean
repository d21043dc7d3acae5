import Mathlib
import Anchor.SignatureCollector.Completion

/-!
# Companion roots in a collector

A collector that is registered with a required companion counts a share only if its entry
has noted that companion root.  An entry has room for two of them.  What an entry says was
said by a message with the same share, and the companion of an operator that always sends
the same share and names one companion only is not displaced.
-/

namespace Anchor

open BlsLagrange

theorem CollectedShare.contains_addCompanion {S : Type} {share : CollectedShare S}
    {root b : Hash256} (h : (share.addCompanion root).contains b = true) :
    share.contains b = true ∨ b = root := by
  unfold CollectedShare.addCompanion at h
  split_ifs at h with hroot
  · exact Or.inl h
  obtain ⟨s, first, second⟩ := share
  rcases first with _ | first <;> rcases second with _ | second <;>
    simp only [CollectedShare.contains, Bool.or_eq_true, decide_eq_true_eq, Option.some.injEq,
      reduceCtorEq, false_or, or_false] at h ⊢
  all_goals grind

theorem CollectedShare.contains_addCompanion_self {S : Type} {share : CollectedShare S}
    {b : Hash256} (h : ∀ r, share.contains r = true → r = b) :
    (share.addCompanion b).contains b = true := by
  unfold CollectedShare.addCompanion
  split_ifs with hb
  · exact hb
  obtain ⟨s, first, second⟩ := share
  cases first with
  | none => simp [CollectedShare.contains]
  | some first =>
    obtain rfl : first = b := h first (by simp [CollectedShare.contains])
    simp [CollectedShare.contains] at hb

namespace SignatureCollectorState

variable {F P G S : Type}

/-! ## Registrations -/

section Notifiers

variable (st : SignatureCollectorState P S) (notify : Option ℕ)

@[simp] theorem signatureShare_addNotifier :
    (st.addNotifier notify).1.signatureShare = st.signatureShare := by
  unfold addNotifier
  split
  · rfl
  · split <;> rfl

@[simp] theorem registration_addNotifier :
    (st.addNotifier notify).1.registration = st.registration := by
  unfold addNotifier
  split
  · rfl
  · split <;> rfl

@[simp] theorem fullSignature_addNotifier :
    (st.addNotifier notify).1.fullSignature = st.fullSignature := by
  unfold addNotifier
  split
  · rfl
  · split <;> rfl

@[simp] theorem signingRoot_addNotifier :
    (st.addNotifier notify).1.signingRoot = st.signingRoot := by
  unfold addNotifier
  split
  · rfl
  · split <;> rfl

end Notifiers

def required (st : SignatureCollectorState P S) : Option Hash256 :=
  st.registration.bind (·.requiredCompanion)

variable {env : CollectorEnv P G S} {st st' : SignatureCollectorState P S}

theorem registerRequest_cases
    {notify : Option ℕ} {threshold : ℕ} {validatorPubkey : PublicKeyBytes}
    {companion : Option Hash256} {served : Deliveries S}
    (h : st.registerRequest env notify threshold validatorPubkey companion =
      some (st', served)) :
    (st.registration.isSome = true ∧ st' = (st.addNotifier notify).1) ∨
    (st.registration = none ∧ ∃ key, st' = ((st.withRegistration
      ⟨threshold, validatorPubkey, key, companion⟩).addNotifier notify).1) := by
  unfold registerRequest at h
  split at h
  · rename_i registration hregistration
    split_ifs at h with hmismatch
    exact Or.inl ⟨by simp [hregistration], (congrArg Prod.fst (Option.some.inj h)).symm⟩
  · rename_i hnone
    split at h
    · cases h
    · rename_i key hkey
      exact Or.inr ⟨hnone, key, (congrArg Prod.fst (Option.some.inj h)).symm⟩

/-! ## What counting leaves of a state -/

/-- Counting completes the state, or drops shares that fail under the keys of the database. -/
structure Reduced (env : CollectorEnv P G S) (st st' : SignatureCollectorState P S) : Prop where
  registration_eq : st'.registration = st.registration
  signingRoot_eq : st'.signingRoot = st.signingRoot
  subset : ∀ e ∈ st'.signatureShare.entries, e ∈ st.signatureShare.entries
  open_of_open : st'.fullSignature = none → st.fullSignature = none
  kept : st'.fullSignature = none → ∀ e ∈ st.signatureShare.entries,
    (∀ r keys, st.registration = some r → env.fetch r.validatorPubkey = some keys →
      env.shareIsValid keys st.signingRoot e.1 e.2.signature = true) →
    e ∈ st'.signatureShare.entries

theorem Reduced.refl (env : CollectorEnv P G S) (st : SignatureCollectorState P S) :
    Reduced env st st :=
  ⟨rfl, rfl, fun _ he => he, id, fun _ _ he _ => he⟩

theorem Reduced.complete
    (h : Reduced env st st') (s : S) : Reduced env st (st'.completeReconstruction s).1 where
  registration_eq := h.registration_eq
  signingRoot_eq := h.signingRoot_eq
  subset _ he := by cases he
  open_of_open hopen := by cases hopen
  kept hopen := by cases hopen

theorem reduced_removeInvalidShares
    {st : SignatureCollectorState P S} {r : CollectorRegistration P}
    {keys : SortedMap OperatorId PublicKeyBytes} (hr : st.registration = some r)
    (hkeys : env.fetch r.validatorPubkey = some keys) :
    Reduced env st (st.removeInvalidShares env keys).1 where
  registration_eq := rfl
  signingRoot_eq := rfl
  subset _ he := (mem_removeInvalidShares.mp he).1
  open_of_open := id
  kept _ _ he hvalid := mem_removeInvalidShares.mpr ⟨he, hvalid r keys hr hkeys⟩

def absorb [DecidableEq S] (env : CollectorEnv P G S) (st : SignatureCollectorState P S) :
    CollectorMessageKind S → Option (SignatureCollectorState P S)
  | .registerNotifier notify requiredCompanion threshold validatorPubkey =>
    (st.registerRequest env notify threshold validatorPubkey requiredCompanion).map Prod.fst
  | .partialSignature operatorId signature companionRoot =>
    some (st.addPartialSignature operatorId signature companionRoot)

/-! ## What an entry says was said by a message -/

structure Backed (root : Hash256) (messages : List (CollectorMessageKind S))
    (st : SignatureCollectorState P S) : Prop where
  signingRoot_eq : st.signingRoot = root
  registered : ∀ r, st.registration = some r → ∃ notify,
    .registerNotifier notify r.requiredCompanion r.threshold r.validatorPubkey ∈ messages
  share : ∀ e ∈ st.signatureShare.entries, ∃ c, .partialSignature e.1 e.2.signature c ∈ messages
  companion : ∀ e ∈ st.signatureShare.entries, ∀ b, e.2.contains b = true →
    .partialSignature e.1 e.2.signature (some b) ∈ messages
  needed : ∀ b, st.required = some b → ∀ e ∈ st.signatureShare.entries, e.2.contains b = true

section Backed

variable {root : Hash256} {messages : List (CollectorMessageKind S)}
  {st : SignatureCollectorState P S}

theorem backed_new : Backed root [] (new root : SignatureCollectorState P S) :=
  ⟨rfl, by simp [new], by simp [new, SortedMap.empty], by simp [new, SortedMap.empty],
    by simp [new, SortedMap.empty]⟩

theorem Backed.append (h : Backed root messages st) (m : CollectorMessageKind S) :
    Backed root (messages ++ [m]) st where
  signingRoot_eq := h.signingRoot_eq
  registered r hr := by
    obtain ⟨notify, hmem⟩ := h.registered r hr
    exact ⟨notify, List.mem_append_left _ hmem⟩
  share e he := by
    obtain ⟨c, hmem⟩ := h.share e he
    exact ⟨c, List.mem_append_left _ hmem⟩
  companion e he b hb := List.mem_append_left _ (h.companion e he b hb)
  needed := h.needed

theorem Backed.addNotifier (h : Backed root messages st) (notify : Option ℕ) :
    Backed root messages (st.addNotifier notify).1 where
  signingRoot_eq := by simpa using h.signingRoot_eq
  registered := by simpa using h.registered
  share := by simpa using h.share
  companion := by simpa using h.companion
  needed := by simpa [required] using h.needed

variable {e : OperatorId × CollectedShare S}

theorem mem_withRegistration {r : CollectorRegistration P} :
    e ∈ (st.withRegistration r).signatureShare.entries ↔
      e ∈ st.signatureShare.entries ∧
        ∀ b, r.requiredCompanion = some b → e.2.contains b = true := by
  unfold withRegistration
  cases r.requiredCompanion <;> simp [SortedMap.retain]

theorem Backed.withRegistration (h : Backed root messages st) {r : CollectorRegistration P}
    {notify : Option ℕ} (hmem :
      .registerNotifier notify r.requiredCompanion r.threshold r.validatorPubkey ∈ messages) :
    Backed root messages (st.withRegistration r) where
  signingRoot_eq := h.signingRoot_eq
  registered r' hr' := by
    cases hr'
    exact ⟨notify, hmem⟩
  share e he := h.share e (mem_withRegistration.mp he).1
  companion e he := h.companion e (mem_withRegistration.mp he).1
  needed b hb e he := (mem_withRegistration.mp he).2 b hb

variable {st' : SignatureCollectorState P S}

theorem Backed.reduced {env : CollectorEnv P G S}
    (h : Backed root messages st) (hreduced : Reduced env st st') :
    Backed root messages st' where
  signingRoot_eq := hreduced.signingRoot_eq.trans h.signingRoot_eq
  registered r hr := h.registered r (hreduced.registration_eq ▸ hr)
  share e he := h.share e (hreduced.subset e he)
  companion e he := h.companion e (hreduced.subset e he)
  needed b hb e he := by
    rw [required, hreduced.registration_eq] at hb
    exact h.needed b hb e (hreduced.subset e he)

variable [DecidableEq S]

section Fields

variable (st) (i : OperatorId) (s : S) (c : Option Hash256)

@[simp] theorem signingRoot_addPartialSignature :
    (st.addPartialSignature i s c).signingRoot = st.signingRoot := by
  unfold SignatureCollectorState.addPartialSignature
  split_ifs <;> rfl

@[simp] theorem registration_addPartialSignature :
    (st.addPartialSignature i s c).registration = st.registration := by
  unfold SignatureCollectorState.addPartialSignature
  split_ifs <;> rfl

@[simp] theorem fullSignature_addPartialSignature :
    (st.addPartialSignature i s c).fullSignature = st.fullSignature := by
  unfold SignatureCollectorState.addPartialSignature
  split_ifs <;> rfl

end Fields

theorem mem_addPartialSignature {i : OperatorId} {s : S} {c : Option Hash256}
    (he : e ∈ (st.addPartialSignature i s c).signatureShare.entries) :
    e ∈ st.signatureShare.entries ∨
      (∀ b, st.required = some b → c = some b) ∧ e.1 = i ∧
        (e.2 = ⟨s, (c, none)⟩ ∨ ∃ share, (i, share) ∈ st.signatureShare.entries ∧
          share.signature = s ∧ e.2 = c.elim share share.addCompanion) := by
  unfold addPartialSignature at he
  split_ifs at he with hfull hrefused
  · exact Or.inl he
  · exact Or.inl he
  have hallowed : ∀ b, st.required = some b → c = some b := by
    intro b hb
    rw [required] at hb
    simpa [hb] using hrefused
  rcases SortedMap.mem_upsert he with ⟨hold, -⟩ | rfl
  · exact Or.inl hold
  cases hget : st.signatureShare.get? i with
  | none => exact Or.inr ⟨hallowed, rfl, Or.inl rfl⟩
  | some share =>
    have hmem := SortedMap.get?_eq_some_iff.mp hget
    by_cases hsame : share.signature = s
    · refine Or.inr ⟨hallowed, rfl, Or.inr ⟨share, hmem, hsame, ?_⟩⟩
      simp [hsame]
    · refine Or.inl ?_
      simpa [hsame] using hmem

theorem Backed.addPartialSignature (h : Backed root messages st) (i : OperatorId) (s : S)
    (c : Option Hash256) : Backed root (messages ++ [.partialSignature i s c])
      (st.addPartialSignature i s c) := by
  have hlast : .partialSignature i s c ∈ messages ++ [.partialSignature i s c] := by simp
  have hbefore := h.append (.partialSignature i s c)
  refine ⟨(st.signingRoot_addPartialSignature i s c).trans h.signingRoot_eq, ?_, ?_, ?_, ?_⟩
  · rw [registration_addPartialSignature]
    exact hbefore.registered
  · intro e he
    rcases mem_addPartialSignature he with hold | ⟨-, rfl, hnew | ⟨share, -, rfl, hnew⟩⟩
    · exact hbefore.share e hold
    · exact ⟨c, by rw [hnew]; exact hlast⟩
    · refine ⟨c, ?_⟩
      rw [hnew]
      cases c <;> simp
  · intro e he b hb
    rcases mem_addPartialSignature he with hold | ⟨-, rfl, hnew | ⟨share, hshare, rfl, hnew⟩⟩
    · exact hbefore.companion e hold b hb
    · rw [hnew] at hb ⊢
      obtain rfl : c = some b := by simpa [CollectedShare.contains] using hb
      exact hlast
    · rw [hnew] at hb ⊢
      cases c with
      | none => exact hbefore.companion _ hshare b hb
      | some c =>
        rw [Option.elim_some, CollectedShare.signature_addCompanion]
        rcases CollectedShare.contains_addCompanion hb with hb | rfl
        · exact hbefore.companion _ hshare b hb
        · exact hlast
  · intro b hb e he
    rw [required, registration_addPartialSignature] at hb
    rcases mem_addPartialSignature he with hold | ⟨hallowed, rfl, hnew | ⟨share, hshare, -, hnew⟩⟩
    · exact h.needed b hb e hold
    · rw [hnew, hallowed b hb]
      simp [CollectedShare.contains]
    · have hcontains := h.needed b hb _ hshare
      rw [hnew, hallowed b hb, Option.elim_some, CollectedShare.addCompanion, if_pos hcontains]
      exact hcontains

theorem Backed.absorb {env : CollectorEnv P G S}
    {m : CollectorMessageKind S} (h : Backed root messages st)
    (habsorb : st.absorb env m = some st') : Backed root (messages ++ [m]) st' := by
  cases m with
  | partialSignature i s c =>
    cases habsorb
    exact h.addPartialSignature i s c
  | registerNotifier notify companion threshold validatorPubkey =>
    obtain ⟨⟨_, served⟩, hregister, rfl⟩ := Option.map_eq_some_iff.mp habsorb
    rcases registerRequest_cases hregister with ⟨-, rfl⟩ | ⟨-, key, rfl⟩
    · exact (h.append _).addNotifier notify
    · apply Backed.addNotifier
      exact (h.append _).withRegistration (List.mem_append_right _ (List.mem_singleton_self _))

end Backed

/-! ## Evidence that stays -/

/-- The messages of an operator all carry one share and one companion, and the share is valid
under the keys of every registered validator. -/
structure Steady (env : CollectorEnv P G S) (root : Hash256) (i : OperatorId) (s : S)
    (b : Hash256) (messages : List (CollectorMessageKind S)) : Prop where
  same : ∀ s' c, .partialSignature i s' c ∈ messages → s' = s ∧ ∀ r, c = some r → r = b
  valid : ∀ notify c threshold validatorPubkey keys,
    .registerNotifier notify c threshold validatorPubkey ∈ messages →
      env.fetch validatorPubkey = some keys → env.shareIsValid keys root i s = true

def Holds (i : OperatorId) (s : S) (b : Hash256) (st : SignatureCollectorState P S) : Prop :=
  ∃ share, st.signatureShare.get? i = some share ∧ share.signature = s ∧ share.contains b = true

/-- Once the companion was told, the entry holds it, unless the collector is complete or asks
for another companion. -/
def Keeps (i : OperatorId) (s : S) (b : Hash256) (messages : List (CollectorMessageKind S))
    (st : SignatureCollectorState P S) : Prop :=
  st.fullSignature = none → (∀ r, st.required = some r → r = b) →
    .partialSignature i s (some b) ∈ messages → st.Holds i s b

section Keeps

variable [DecidableEq S] {env : CollectorEnv P G S} {root b : Hash256} {i : OperatorId} {s : S}
  {messages : List (CollectorMessageKind S)} {m : CollectorMessageKind S}
  {st st' : SignatureCollectorState P S}

omit [DecidableEq S] in
theorem Steady.of_append (h : Steady env root i s b (messages ++ [m])) :
    Steady env root i s b messages :=
  ⟨fun s' c hmem => h.same s' c (List.mem_append_left _ hmem),
    fun notify c threshold key keys hmem =>
      h.valid notify c threshold key keys (List.mem_append_left _ hmem)⟩

omit [DecidableEq S] in
theorem Keeps.reduced (h : Keeps i s b messages st) (hbacked : Backed root messages st)
    (hsteady : Steady env root i s b messages) (hreduced : Reduced env st st') :
    Keeps i s b messages st' := by
  intro hopen hrequired hmem
  rw [required, hreduced.registration_eq] at hrequired
  obtain ⟨share, hget, rfl, hcontains⟩ := h (hreduced.open_of_open hopen) hrequired hmem
  refine ⟨share, ?_, rfl, hcontains⟩
  rw [SortedMap.get?_eq_some_iff] at hget ⊢
  refine hreduced.kept hopen _ hget ?_
  intro r keys hr hkeys
  obtain ⟨notify, hregistered⟩ := hbacked.registered r hr
  rw [hbacked.signingRoot_eq]
  exact hsteady.valid _ _ _ _ keys hregistered hkeys

omit [DecidableEq S] in
theorem Holds.withRegistration (h : st.Holds i s b) {r : CollectorRegistration P}
    (hr : ∀ c, r.requiredCompanion = some c → c = b) : (st.withRegistration r).Holds i s b := by
  obtain ⟨share, hget, hsame, hcontains⟩ := h
  refine ⟨share, ?_, hsame, hcontains⟩
  rw [SortedMap.get?_eq_some_iff] at hget ⊢
  refine mem_withRegistration.mpr ⟨hget, ?_⟩
  intro c hc
  rw [hr c hc]
  exact hcontains

omit [DecidableEq S] in
theorem Holds.addNotifier (h : st.Holds i s b) (notify : Option ℕ) :
    (st.addNotifier notify).1.Holds i s b := by
  rw [Holds, signatureShare_addNotifier]
  exact h

theorem Holds.addPartialSignature_ne (h : st.Holds i s b) {j : OperatorId} (hne : i ≠ j) (t : S)
    (c : Option Hash256) : (st.addPartialSignature j t c).Holds i s b := by
  unfold SignatureCollectorState.addPartialSignature
  split_ifs
  · exact h
  · exact h
  · obtain ⟨share, hget, hrest⟩ := h
    exact ⟨share, by rw [SortedMap.get?_upsert_ne _ hne, hget], hrest⟩

theorem Holds.addPartialSignature_self (h : st.Holds i s b) (c : Option Hash256)
    (hc : ∀ r, c = some r → r = b) : (st.addPartialSignature i s c).Holds i s b := by
  unfold SignatureCollectorState.addPartialSignature
  split_ifs
  · exact h
  · exact h
  · obtain ⟨share, hget, hsame, hcontains⟩ := h
    refine ⟨_, SortedMap.get?_upsert_self _ _ _, ?_⟩
    rw [hget]
    simp only [hsame, ne_eq, not_true_eq_false, if_false]
    cases c with
    | none => exact ⟨hsame, hcontains⟩
    | some r =>
      rw [hc r rfl, Option.elim_some, CollectedShare.addCompanion, if_pos hcontains]
      exact ⟨hsame, hcontains⟩

theorem holds_addPartialSignature (hbacked : Backed root messages st)
    (hsteady : Steady env root i s b messages) (hopen : st.fullSignature = none)
    (hrequired : ∀ r, st.required = some r → r = b) :
    (st.addPartialSignature i s (some b)).Holds i s b := by
  have hallowed : ¬ (st.registration.bind (·.requiredCompanion)).any (some b ≠ some ·) = true := by
    cases hr : st.registration.bind (·.requiredCompanion) with
    | none => simp
    | some r => simp [hrequired r hr]
  unfold SignatureCollectorState.addPartialSignature
  rw [if_neg (by simp [hopen]), if_neg hallowed]
  refine ⟨_, SortedMap.get?_upsert_self _ _ _, ?_⟩
  cases hget : st.signatureShare.get? i with
  | none => exact ⟨rfl, by simp [CollectedShare.contains]⟩
  | some share =>
    have hentry := SortedMap.get?_eq_some_iff.mp hget
    obtain ⟨c, hmem⟩ := hbacked.share _ hentry
    have hsame : share.signature = s := (hsteady.same _ _ hmem).1
    simp only [hsame, ne_eq, not_true_eq_false, if_false, Option.elim_some]
    refine ⟨by simp [hsame], CollectedShare.contains_addCompanion_self ?_⟩
    intro r hr
    exact (hsteady.same _ _ (hbacked.companion _ hentry r hr)).2 r rfl

theorem Keeps.addPartialSignature (h : Keeps i s b messages st) (hbacked : Backed root messages st)
    {j : OperatorId} {t : S} {c : Option Hash256}
    (hsteady : Steady env root i s b (messages ++ [.partialSignature j t c])) :
    Keeps i s b (messages ++ [.partialSignature j t c]) (st.addPartialSignature j t c) := by
  intro hopen hrequired hmem
  rw [fullSignature_addPartialSignature] at hopen
  rw [required, registration_addPartialSignature] at hrequired
  rcases List.mem_append.mp hmem with hbefore | hlast
  · have hheld := h hopen hrequired hbefore
    by_cases hij : i = j
    · subst hij
      obtain ⟨rfl, hc⟩ := hsteady.same t c (List.mem_append_right _ (List.mem_singleton_self _))
      exact hheld.addPartialSignature_self c hc
    · exact hheld.addPartialSignature_ne hij t c
  · cases List.mem_singleton.mp hlast
    exact holds_addPartialSignature hbacked hsteady.of_append hopen hrequired

theorem Keeps.absorb (h : Keeps i s b messages st) (hbacked : Backed root messages st)
    (hsteady : Steady env root i s b (messages ++ [m])) (habsorb : st.absorb env m = some st') :
    Keeps i s b (messages ++ [m]) st' := by
  cases m with
  | partialSignature j t c =>
    cases habsorb
    exact h.addPartialSignature hbacked hsteady
  | registerNotifier notify companion threshold validatorPubkey =>
    obtain ⟨⟨_, served⟩, hregister, rfl⟩ := Option.map_eq_some_iff.mp habsorb
    intro hopen hrequired hmem
    have hbefore : .partialSignature i s (some b) ∈ messages := by simpa using hmem
    rcases registerRequest_cases hregister with ⟨-, rfl⟩ | ⟨hnone, key, rfl⟩
    · rw [fullSignature_addNotifier] at hopen
      rw [required, registration_addNotifier] at hrequired
      exact (h hopen hrequired hbefore).addNotifier notify
    · rw [fullSignature_addNotifier] at hopen
      rw [required, registration_addNotifier] at hrequired
      have hunregistered : ∀ r, st.required = some r → r = b := by
        simp [required, hnone]
      exact ((h hopen hunregistered hbefore).withRegistration hrequired).addNotifier notify

end Keeps

/-! ## Runs -/

section Runs

variable [Field F] [DecidableEq F] [AddCommGroup G] [Module F G]

variable {env : CollectorEnv P G S} {st st' : SignatureCollectorState P S}

theorem reduced_of_fallback
    {rest : Deliveries S} (h : st.handleReconstructionFallback F env = some (st', rest)) :
    Reduced env st st' := by
  unfold handleReconstructionFallback at h
  split at h
  · cases h
  rename_i r hr
  split at h
  · cases h
  rename_i keys hkeys
  have hchecked := reduced_removeInvalidShares hr hkeys
  simp only at h
  split_ifs at h with hnil hfew
  · cases h
    exact hchecked
  split at h
  · cases h
    exact hchecked.complete _
  · cases h
  · cases h

theorem reduced_reconstruct
    {rest : Deliveries S} (h : st.reconstruct F env = some (st', rest)) :
    Reduced env st st' := by
  unfold reconstruct at h
  split at h
  · cases h
    exact Reduced.refl env st
  · cases h
    exact (Reduced.refl env st).complete _
  · exact reduced_of_fallback h

variable [DecidableEq S]

def counted (F : Type) [Field F] [DecidableEq F] [Module F G] (env : CollectorEnv P G S)
    (root : Hash256) (messages : List (CollectorMessageKind S)) (m : CollectorMessageKind S) :
    Option (SignatureCollectorState P S) :=
  (run F env root messages).1.bind fun st => st.absorb env m

theorem absorb_of_handle
    {m : CollectorMessageKind S} {delivered : Deliveries S}
    (h : st.handle F env m = some (st', delivered)) :
    ∃ mid rest, st.absorb env m = some mid ∧ mid.reconstruct F env = some (st', rest) := by
  cases m with
  | registerNotifier notify requiredCompanion threshold validatorPubkey =>
    simp only [handle, Option.bind_eq_bind, Option.bind_eq_some_iff] at h
    obtain ⟨⟨mid, served⟩, hregister, ⟨after, rest⟩, hreconstruct, heq⟩ := h
    cases heq
    exact ⟨mid, rest, by simp [absorb, hregister], hreconstruct⟩
  | partialSignature operatorId signature companionRoot => exact ⟨_, _, rfl, h⟩

variable {env : CollectorEnv P G S} {root : Hash256}
  {I : List (CollectorMessageKind S) → SignatureCollectorState P S → Prop}

section

variable (hnew : I [] (new root))
  (habsorb : ∀ messages m st st', I messages st → st.absorb env m = some st' →
    I (messages ++ [m]) st')
  (hreduced : ∀ messages st st', I messages st → Reduced env st st' → I messages st')
include hnew habsorb hreduced

theorem run_invariant (messages : List (CollectorMessageKind S)) {st : SignatureCollectorState P S}
    (h : (run F env root messages).1 = some st) : I messages st := by
  induction messages using List.reverseRecOn generalizing st with
  | nil =>
    cases h
    exact hnew
  | append_singleton messages m ih =>
    rw [run, List.foldl_append, List.foldl_cons, List.foldl_nil, ← run, step] at h
    split at h
    · rename_i hnone
      cases hnone.symm.trans h
    rename_i before hbefore
    split at h
    · cases h
    rename_i after delivered hhandle
    cases h
    obtain ⟨mid, rest, hmid, hreconstruct⟩ := absorb_of_handle hhandle
    exact hreduced _ _ _ (habsorb _ _ _ _ (ih hbefore) hmid) (reduced_reconstruct hreconstruct)

theorem counted_invariant {messages : List (CollectorMessageKind S)} {m : CollectorMessageKind S}
    {st : SignatureCollectorState P S} (h : counted F env root messages m = some st) :
    I (messages ++ [m]) st := by
  obtain ⟨before, hbefore, hst⟩ := Option.bind_eq_some_iff.mp h
  exact habsorb _ _ _ _ (run_invariant hnew habsorb hreduced messages hbefore) hst


end

section Counted

variable {messages : List (CollectorMessageKind S)} {m : CollectorMessageKind S}
  {st : SignatureCollectorState P S}

theorem backed_counted (h : counted F env root messages m = some st) :
    Backed root (messages ++ [m]) st :=
  counted_invariant backed_new (fun _ _ _ _ hst habsorb => hst.absorb habsorb)
    (fun _ _ _ hst hreduced => hst.reduced hreduced) h

theorem keeps_counted {i : OperatorId} {s : S} {b : Hash256}
    (hsteady : Steady env root i s b (messages ++ [m]))
    (h : counted F env root messages m = some st) : Keeps i s b (messages ++ [m]) st := by
  have hkeeps : Backed root (messages ++ [m]) st ∧ (Steady env root i s b (messages ++ [m]) →
      Keeps i s b (messages ++ [m]) st) := by
    refine counted_invariant (I := fun messages st => Backed root messages st ∧
      (Steady env root i s b messages → Keeps i s b messages st)) ?_ ?_ ?_ h
    · exact ⟨backed_new, fun _ _ _ hmem => by simp at hmem⟩
    · rintro messages m st st' ⟨hbacked, hst⟩ habsorb
      exact ⟨hbacked.absorb habsorb,
        fun hsteady => (hst hsteady.of_append).absorb hbacked hsteady habsorb⟩
    · rintro messages st st' ⟨hbacked, hst⟩ hreduced
      exact ⟨hbacked.reduced hreduced,
        fun hsteady => (hst hsteady).reduced hbacked hsteady hreduced⟩
  exact hkeeps.2 hsteady

end Counted

end Runs

end SignatureCollectorState

end Anchor
