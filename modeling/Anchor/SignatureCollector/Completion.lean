import Mathlib
import Anchor.SignatureCollector.Collector

/-!
# Collectors complete, and deliver one signature

With readable and correct share keys, a wrong share costs one fallback: it is found
and dropped, and what remains either completes the collector or is too little.  So a
registered collector that is not complete holds fewer shares than the threshold, and
no message ends it.
-/

namespace Anchor

open BlsLagrange

namespace CollectorMessageKind

variable {S : Type}

def notifier : CollectorMessageKind S → Option ℕ
  | registerNotifier notify _ _ _ => notify
  | partialSignature _ _ _ => none

def isRegistration : CollectorMessageKind S → Bool
  | registerNotifier _ _ _ _ => true
  | partialSignature _ _ _ => false

def shareOf (i : OperatorId) : CollectorMessageKind S → Option S
  | registerNotifier _ _ _ _ => none
  | partialSignature j signature _ => if j = i then some signature else none

def firstShare (messages : List (CollectorMessageKind S)) (i : OperatorId) : Option S :=
  messages.findSome? (shareOf i)

/-- Registrations have the given parameters, and shares come from the committee. -/
def Matches (validatorPubkey : PublicKeyBytes) (threshold : ℕ) (companion : Option Hash256)
    (committee : List OperatorId) : CollectorMessageKind S → Prop
  | registerNotifier _ c t k => t = threshold ∧ k = validatorPubkey ∧ c = companion
  | partialSignature i _ _ => i ∈ committee

theorem firstShare_append_singleton (messages : List (CollectorMessageKind S))
    (m : CollectorMessageKind S) (i : OperatorId) :
    firstShare (messages ++ [m]) i = (firstShare messages i).or (m.shareOf i) := by
  simp [firstShare, List.findSome?_append]

theorem filterMap_notifier_append_singleton (messages : List (CollectorMessageKind S))
    (m : CollectorMessageKind S) : (messages ++ [m]).filterMap notifier =
      messages.filterMap notifier ++ m.notifier.toList := by
  rw [List.filterMap_append]
  cases hm : m.notifier <;> simp [hm]

end CollectorMessageKind

namespace SignatureCollectorState

open CollectorMessageKind

theorem addNotifier_of_none {P S : Type} {st : SignatureCollectorState P S}
    (h : st.fullSignature = none) (notify : ℕ) :
    st.addNotifier (some notify) = ({ st with notifiers := st.notifiers ++ [notify] }, []) := by
  simp only [addNotifier, h]

theorem addNotifier_of_some {P S : Type} {st : SignatureCollectorState P S} {full : S}
    (h : st.fullSignature = some full) (notify : ℕ) :
    st.addNotifier (some notify) = (st, [(notify, full)]) := by
  simp only [addNotifier, h]

theorem mem_removeInvalidShares {P G S : Type} {env : CollectorEnv P G S}
    {st : SignatureCollectorState P S} {keys : SortedMap OperatorId PublicKeyBytes}
    {e : OperatorId × CollectedShare S} :
    e ∈ (st.removeInvalidShares env keys).1.signatureShare.entries ↔
      e ∈ st.signatureShare.entries ∧
        env.shareIsValid keys st.signingRoot e.1 e.2.signature = true :=
  List.mem_filter

variable {F P G S : Type} [Field F] [AddCommGroup P] [Module F P] [AddCommGroup G] [Module F G]
  {env : CollectorEnv P G S} {validatorPubkey : PublicKeyBytes} {threshold : ℕ}
  {committee : List OperatorId} (K : ShareKeys F env validatorPubkey threshold committee)

/-- What holds between a message and the attempt to reconstruct that follows it. -/
structure Gathered (companion : Option Hash256) (root : Hash256)
    (messages : List (CollectorMessageKind S)) (st : SignatureCollectorState P S)
    (received : Deliveries S) : Prop where
  signingRoot_eq : st.signingRoot = root
  registration_eq : ∀ r, st.registration = some r →
    r = ⟨threshold, validatorPubkey, K.masterKey, companion⟩
  registered_iff : st.registration.isSome = true ↔ ∃ m ∈ messages, m.isRegistration = true
  full : ∀ s, st.fullSignature = some s → env.bls.verify K.masterKey root s = true ∧
    st.signatureShare.entries = [] ∧ st.notifiers = [] ∧ st.registration.isSome = true
  received_eq : ∀ e ∈ received, st.fullSignature = some e.2
  notifiers_perm : (received.map Prod.fst ++ st.notifiers).Perm (messages.filterMap notifier)
  members : ∀ e ∈ st.signatureShare.entries, e.1 ∈ committee ∧ (firstShare messages e.1).isSome
  kept : companion = none → st.fullSignature = none → ∀ i s, firstShare messages i = some s →
    env.shareIsValid K.keys root i s = true →
      ∃ share, st.signatureShare.get? i = some share ∧ share.signature = s

/-- What holds after the attempt: a registered collector is complete or lacks shares. -/
structure Settled (companion : Option Hash256) (root : Hash256)
    (messages : List (CollectorMessageKind S)) (st : SignatureCollectorState P S)
    (received : Deliveries S) : Prop where
  gathered : Gathered K companion root messages st received
  waiting : st.registration.isSome = true → st.fullSignature = none →
    st.signatureShare.entries.length < threshold

variable {K} {companion : Option Hash256} {root : Hash256}
  {messages : List (CollectorMessageKind S)} {received : Deliveries S}

/-! ## Messages -/

variable {st : SignatureCollectorState P S}

theorem gathered_addNotifier {notify : Option ℕ}
    (h : Gathered K companion root
      (messages ++ [.registerNotifier none companion threshold validatorPubkey]) st received) :
    Gathered K companion root
      (messages ++ [.registerNotifier notify companion threshold validatorPubkey])
      (st.addNotifier notify).1 (received ++ (st.addNotifier notify).2) := by
  have hperm : (received.map Prod.fst ++ st.notifiers).Perm (messages.filterMap notifier) := by
    simpa only [filterMap_notifier_append_singleton, notifier, Option.toList_none,
      List.append_nil] using h.notifiers_perm
  have hregistered :
      (∃ m ∈ messages ++ [.registerNotifier none companion threshold validatorPubkey],
        m.isRegistration = true) ↔
      ∃ m ∈ messages ++ [.registerNotifier notify companion threshold validatorPubkey],
        m.isRegistration = true := by
    simp [isRegistration]
  have hmembers := h.members
  have hkept := h.kept
  simp only [firstShare_append_singleton, shareOf, Option.or_none] at hmembers hkept
  rcases notify with _ | n
  · rwa [addNotifier, List.append_nil]
  cases hfull : st.fullSignature with
  | none =>
    rw [addNotifier_of_none hfull, List.append_nil]
    refine ⟨h.signingRoot_eq, h.registration_eq, h.registered_iff.trans hregistered, ?_,
      h.received_eq, ?_, ?_, ?_⟩
    · intro s hs
      cases hfull.symm.trans hs
    · rw [filterMap_notifier_append_singleton, ← List.append_assoc]
      exact hperm.append_right [n]
    · simpa only [firstShare_append_singleton, shareOf, Option.or_none] using hmembers
    · simpa only [firstShare_append_singleton, shareOf, Option.or_none] using hkept
  | some full =>
    obtain ⟨-, -, hnotifiers, -⟩ := h.full full hfull
    rw [addNotifier_of_some hfull]
    refine ⟨h.signingRoot_eq, h.registration_eq, h.registered_iff.trans hregistered, h.full, ?_,
      ?_, ?_, ?_⟩
    · intro e he
      rcases List.mem_append.mp he with he | he
      · exact h.received_eq e he
      · rw [List.mem_singleton.mp he, hfull]
    · rw [hnotifiers, List.append_nil] at hperm ⊢
      rw [filterMap_notifier_append_singleton, List.map_append]
      exact hperm.append_right [n]
    · simpa only [firstShare_append_singleton, shareOf, Option.or_none] using hmembers
    · simpa only [firstShare_append_singleton, shareOf, Option.or_none] using hkept

theorem gathered_withRegistration
    (h : Gathered K companion root messages st received) (hnone : st.registration = none) :
    Gathered K companion root
      (messages ++ [.registerNotifier none companion threshold validatorPubkey])
      (st.withRegistration ⟨threshold, validatorPubkey, K.masterKey, companion⟩) received := by
  have hfull : st.fullSignature = none := by
    apply Option.eq_none_iff_forall_not_mem.mpr
    intro s hs
    simpa [hnone] using (h.full s hs).2.2.2
  refine ⟨h.signingRoot_eq, ?_, ?_, ?_, h.received_eq, ?_, ?_, ?_⟩
  · rintro r hr
    cases hr
    rfl
  · simp [withRegistration, isRegistration]
  · intro s hs
    cases hfull.symm.trans hs
  · simp only [filterMap_notifier_append_singleton, notifier, Option.toList_none, List.append_nil]
    exact h.notifiers_perm
  · intro e he
    rw [firstShare_append_singleton, shareOf, Option.or_none]
    apply h.members e
    cases companion with
    | none => exact he
    | some c => exact List.mem_of_mem_filter he
  · intro hcompanion _ i s hfirst hvalid
    rw [firstShare_append_singleton, shareOf, Option.or_none] at hfirst
    subst hcompanion
    exact h.kept rfl hfull i s hfirst hvalid

theorem gathered_registerRequest {notify : Option ℕ}
    (h : Gathered K companion root messages st received) :
    ∃ st' served,
      st.registerRequest env notify threshold validatorPubkey companion = some (st', served) ∧
      Gathered K companion root
        (messages ++ [.registerNotifier notify companion threshold validatorPubkey]) st'
        (received ++ served) := by
  cases hreg : st.registration with
  | none =>
    refine ⟨_, _, ?_, gathered_addNotifier (gathered_withRegistration h hreg)⟩
    simp only [registerRequest, hreg, K.decompress_eq]
    rfl
  | some r =>
    obtain rfl := h.registration_eq r hreg
    have hagain : Gathered K companion root
        (messages ++ [.registerNotifier none companion threshold validatorPubkey]) st
        received := by
      refine ⟨h.signingRoot_eq, h.registration_eq, ?_, h.full, h.received_eq, ?_, ?_, ?_⟩
      · simp [hreg, isRegistration]
      · simpa only [filterMap_notifier_append_singleton, notifier, Option.toList_none,
          List.append_nil] using h.notifiers_perm
      · simpa only [firstShare_append_singleton, shareOf, Option.or_none] using h.members
      · simpa only [firstShare_append_singleton, shareOf, Option.or_none] using h.kept
    refine ⟨_, _, ?_, gathered_addNotifier hagain⟩
    simp [registerRequest, hreg]

theorem gathered_addPartialSignature [DecidableEq S]
    {i : OperatorId} {signature : S} {companionRoot : Option Hash256} (hi : i ∈ committee)
    (h : Gathered K companion root messages st received) :
    Gathered K companion root (messages ++ [.partialSignature i signature companionRoot])
      (st.addPartialSignature i signature companionRoot) received := by
  have hperm : (received.map Prod.fst ++ st.notifiers).Perm ((messages ++
      [partialSignature i signature companionRoot]).filterMap notifier) := by
    simpa only [filterMap_notifier_append_singleton, notifier, Option.toList_none,
      List.append_nil] using h.notifiers_perm
  have hregistered : st.registration.isSome = true ↔ ∃ m ∈ messages ++
      [partialSignature i signature companionRoot], m.isRegistration = true := by
    simpa [isRegistration] using h.registered_iff
  have hmembers : ∀ e ∈ st.signatureShare.entries, e.1 ∈ committee ∧
      (firstShare (messages ++ [partialSignature i signature companionRoot]) e.1).isSome := by
    intro e he
    obtain ⟨hcommittee, hfirst⟩ := h.members e he
    refine ⟨hcommittee, ?_⟩
    rw [firstShare_append_singleton, Option.isSome_or, hfirst, Bool.true_or]
  unfold addPartialSignature
  split_ifs with hfull hrefused
  · refine ⟨h.signingRoot_eq, h.registration_eq, hregistered, h.full, h.received_eq, hperm,
      hmembers, ?_⟩
    intro _ hnone
    simp [hnone] at hfull
  · refine ⟨h.signingRoot_eq, h.registration_eq, hregistered, h.full, h.received_eq, hperm,
      hmembers, ?_⟩
    rintro rfl
    cases hreg : st.registration with
    | none => simp [hreg] at hrefused
    | some r =>
      obtain rfl := h.registration_eq r hreg
      simp [hreg] at hrefused
  · have hnone : st.fullSignature = none := Option.not_isSome_iff_eq_none.mp hfull
    refine ⟨h.signingRoot_eq, h.registration_eq, hregistered, ?_, h.received_eq, hperm, ?_, ?_⟩
    · intro s hs
      cases hnone.symm.trans hs
    · intro e he
      rcases SortedMap.mem_upsertList he with hei | he
      · refine ⟨hei ▸ hi, ?_⟩
        rw [firstShare_append_singleton, hei]
        simp [shareOf]
      · exact hmembers e he
    · intro hcompanion _ j s hfirst hvalid
      rw [firstShare_append_singleton] at hfirst
      by_cases hj : j = i
      swap
      · rw [shareOf, if_neg (Ne.symm hj), Option.or_none] at hfirst
        rw [SortedMap.get?_upsert_ne _ hj]
        exact h.kept hcompanion hnone j s hfirst hvalid
      subst hj
      rw [SortedMap.get?_upsert_self]
      refine ⟨_, rfl, ?_⟩
      cases hmessages : firstShare messages j with
      | some s' =>
        rw [hmessages, Option.some_or] at hfirst
        cases hfirst
        obtain ⟨share, hget, rfl⟩ := h.kept hcompanion hnone j _ hmessages hvalid
        rw [hget]
        simp only
        split_ifs
        · rfl
        · cases companionRoot <;> simp
      | none =>
        rw [hmessages, Option.none_or, shareOf, if_pos rfl] at hfirst
        cases hfirst
        have hget : st.signatureShare.get? j = none := by
          apply Option.eq_none_iff_forall_not_mem.mpr
          intro share hshare
          simpa [hmessages] using
            (h.members (j, share) (SortedMap.get?_eq_some_iff.mp hshare)).2
        rw [hget]

variable [DecidableEq F]

/-! ## Reconstruction -/

theorem tryReconstruct_of_valid
    (hregistration : st.registration = some ⟨threshold, validatorPubkey, K.masterKey, companion⟩)
    (hfull : st.fullSignature = none) (hmembers : ∀ e ∈ st.signatureShare.entries, e.1 ∈ committee)
    (hvalid : ∀ e ∈ st.signatureShare.entries,
      env.shareIsValid K.keys st.signingRoot e.1 e.2.signature = true)
    (hlength : threshold ≤ st.signatureShare.entries.length) :
    ∃ s, env.bls.verify K.masterKey st.signingRoot s = true ∧
      st.tryReconstruct F env = .ok (some s) := by
  obtain ⟨s, hcombine, hverify⟩ := K.verify_combineSignatures hmembers hvalid hlength
  refine ⟨s, hverify, ?_⟩
  simp [tryReconstruct, hfull, hregistration, not_lt.mpr hlength, hcombine, hverify]

theorem tryReconstruct_eq_ok {result : Option S}
    (hregistration : st.registration = some ⟨threshold, validatorPubkey, K.masterKey, companion⟩)
    (hfull : st.fullSignature = none) (hlength : ¬st.signatureShare.entries.length < threshold)
    (h : st.tryReconstruct F env = .ok result) :
    ∃ s, result = some s ∧ env.bls.verify K.masterKey st.signingRoot s = true := by
  simp only [tryReconstruct, hfull, hregistration, Option.isSome_none, Bool.false_eq_true, if_false,
    if_neg hlength] at h
  split at h
  · cases h
  · rename_i s hs
    split_ifs at h with hverify
    cases h
    exact ⟨s, rfl, hverify⟩

/-- A failed attempt with enough shares drops the wrong ones, and completes the
collector if enough remain. -/
theorem reconstruct_of_error {failure : ReconstructionFailure}
    (hregistration : st.registration = some ⟨threshold, validatorPubkey, K.masterKey, companion⟩)
    (hfull : st.fullSignature = none) (hmembers : ∀ e ∈ st.signatureShare.entries, e.1 ∈ committee)
    (hlength : ¬st.signatureShare.entries.length < threshold)
    (h : st.tryReconstruct F env = .error failure) :
    (∃ s, env.bls.verify K.masterKey st.signingRoot s = true ∧
      st.reconstruct F env = some (st.completeReconstruction s)) ∨
    ((st.removeInvalidShares env K.keys).1.signatureShare.entries.length < threshold ∧
      st.reconstruct F env = some ((st.removeInvalidShares env K.keys).1, [])) := by
  have hinvalid : (st.removeInvalidShares env K.keys).2 ≠ [] := by
    intro hnil
    have hall : ∀ e ∈ st.signatureShare.entries,
        env.shareIsValid K.keys st.signingRoot e.1 e.2.signature = true := by
      simpa [removeInvalidShares] using hnil
    obtain ⟨s, -, hs⟩ :=
      tryReconstruct_of_valid hregistration hfull hmembers hall (not_lt.mp hlength)
    cases h.symm.trans hs
  have hfallback : st.reconstruct F env = st.handleReconstructionFallback F env := by
    simp only [reconstruct, h]
  rw [hfallback]
  simp only [handleReconstructionFallback, hregistration, K.fetch_eq, if_neg hinvalid]
  by_cases hremaining :
      (st.removeInvalidShares env K.keys).1.signatureShare.entries.length < threshold
  · exact Or.inr ⟨hremaining, if_pos hremaining⟩
  · have hregistration' : (st.removeInvalidShares env K.keys).1.registration =
        some ⟨threshold, validatorPubkey, K.masterKey, companion⟩ := hregistration
    obtain ⟨s, hverify, hs⟩ := tryReconstruct_of_valid hregistration' hfull
      (fun e he => hmembers e (mem_removeInvalidShares.mp he).1)
      (fun e he => (mem_removeInvalidShares.mp he).2) (not_lt.mp hremaining)
    refine Or.inl ⟨s, hverify, ?_⟩
    rw [if_neg hremaining, hs]
    rfl

theorem reconstruct_cases
    (hregistration : ∀ r, st.registration = some r →
      r = ⟨threshold, validatorPubkey, K.masterKey, companion⟩)
    (hmembers : ∀ e ∈ st.signatureShare.entries, e.1 ∈ committee) :
    (st.reconstruct F env = some (st, []) ∧ (st.registration.isSome = true →
      st.fullSignature = none → st.signatureShare.entries.length < threshold)) ∨
    st.registration.isSome = true ∧ st.fullSignature = none ∧
      ((∃ s, env.bls.verify K.masterKey st.signingRoot s = true ∧
        st.reconstruct F env = some (st.completeReconstruction s)) ∨
      ((st.removeInvalidShares env K.keys).1.signatureShare.entries.length < threshold ∧
        st.reconstruct F env = some ((st.removeInvalidShares env K.keys).1, []))) := by
  by_cases hfull : st.fullSignature.isSome = true
  · refine Or.inl ⟨?_, fun _ hnone => by simp [hnone] at hfull⟩
    simp [reconstruct, tryReconstruct, hfull]
  rw [Option.not_isSome_iff_eq_none] at hfull
  by_cases hnone : st.registration = none
  · refine Or.inl ⟨?_, fun hsome => by simp [hnone] at hsome⟩
    simp [reconstruct, tryReconstruct, hfull, hnone]
  obtain ⟨r, hr⟩ := Option.ne_none_iff_exists'.mp hnone
  obtain rfl := hregistration r hr
  by_cases hlength : st.signatureShare.entries.length < threshold
  · refine Or.inl ⟨?_, fun _ _ => hlength⟩
    simp [reconstruct, tryReconstruct, hfull, hr, hlength]
  refine Or.inr ⟨by simp [hr], hfull, ?_⟩
  cases hattempt : st.tryReconstruct F env with
  | error failure => exact reconstruct_of_error hr hfull hmembers hlength hattempt
  | ok result =>
    obtain ⟨s, rfl, hverify⟩ := tryReconstruct_eq_ok hr hfull hlength hattempt
    exact Or.inl ⟨s, hverify, by simp only [reconstruct, hattempt]⟩

theorem settled_reconstruct
    (h : Gathered K companion root messages st received) :
    ∃ st' delivered, st.reconstruct F env = some (st', delivered) ∧
      Settled K companion root messages st' (received ++ delivered) := by
  rcases reconstruct_cases h.registration_eq fun e he => (h.members e he).1 with
    ⟨heq, hwaiting⟩ | ⟨hreg, hfull, ⟨s, hverify, heq⟩ | ⟨hlength, heq⟩⟩
  · refine ⟨st, [], heq, ?_, hwaiting⟩
    rwa [List.append_nil]
  · -- the collector completes and serves all its notifiers
    have hnone : received = [] := by
      apply List.eq_nil_iff_forall_not_mem.mpr
      intro e he
      cases hfull.symm.trans (h.received_eq e he)
    refine ⟨_, _, heq, ⟨h.signingRoot_eq, h.registration_eq, h.registered_iff, ?_, ?_, ?_, ?_, ?_⟩,
      fun _ hnone => by cases hnone⟩
    · intro s' hs'
      cases hs'
      exact ⟨h.signingRoot_eq ▸ hverify, rfl, rfl, hreg⟩
    · intro e he
      rw [hnone, List.nil_append] at he
      obtain ⟨notifier, -, rfl⟩ := List.mem_map.mp he
      rfl
    · have hperm := h.notifiers_perm
      rw [hnone] at hperm ⊢
      simpa [completeReconstruction, Function.comp_def] using hperm
    · intro e he
      cases he
    · intro _ hnone
      cases hnone
  · refine ⟨_, [], heq, ⟨h.signingRoot_eq, h.registration_eq, h.registered_iff, ?_, ?_, ?_, ?_, ?_⟩,
      fun _ _ => hlength⟩
    · intro s hs
      cases hfull.symm.trans hs
    · rw [List.append_nil]
      exact h.received_eq
    · rw [List.append_nil]
      exact h.notifiers_perm
    · intro e he
      exact h.members e (mem_removeInvalidShares.mp he).1
    · intro hcompanion hnone i s hfirst hvalid
      obtain ⟨share, hget, rfl⟩ := h.kept hcompanion hnone i s hfirst hvalid
      refine ⟨share, ?_, rfl⟩
      have hkeep : env.shareIsValid K.keys st.signingRoot i share.signature = true := by
        rwa [h.signingRoot_eq]
      change (st.signatureShare.retain _).get? i = some share
      rw [SortedMap.get?_retain, hget]
      simp [Option.filter, hkeep]

/-! ## Runs -/

variable [DecidableEq S]

theorem settled_handle {m : CollectorMessageKind S}
    (hm : m.Matches validatorPubkey threshold companion committee)
    (h : Settled K companion root messages st received) :
    ∃ st' delivered, st.handle F env m = some (st', delivered) ∧
      Settled K companion root (messages ++ [m]) st' (received ++ delivered) := by
  cases m with
  | registerNotifier notify c t k =>
    obtain ⟨rfl, rfl, rfl⟩ := hm
    obtain ⟨st', served, hregister, hgathered⟩ := gathered_registerRequest h.gathered
    obtain ⟨st'', delivered, hreconstruct, hsettled⟩ := settled_reconstruct hgathered
    refine ⟨st'', served ++ delivered, ?_, by rwa [← List.append_assoc]⟩
    simp only [handle, hregister, Option.bind_eq_bind, Option.bind_some, hreconstruct]
    rfl
  | partialSignature i signature companionRoot =>
    exact settled_reconstruct (gathered_addPartialSignature hm h.gathered)

theorem settled_run (root : Hash256)
    (hmessages : ∀ m ∈ messages, m.Matches validatorPubkey threshold companion committee) :
    ∃ st, (run F env root messages).1 = some st ∧
      Settled K companion root messages st (run F env root messages).2 := by
  induction messages using List.reverseRecOn with
  | nil =>
    refine ⟨new root, rfl, ⟨rfl, ?_, ?_, ?_, ?_, ?_, ?_, ?_⟩, ?_⟩ <;> simp [new, run, firstShare,
      SortedMap.empty]
  | append_singleton messages m ih =>
    obtain ⟨st, hst, hsettled⟩ := ih fun m' hm' => hmessages m' (List.mem_append_left _ hm')
    obtain ⟨st', delivered, hhandle, hsettled'⟩ := settled_handle
      (hmessages m (List.mem_append_right _ (by simp))) hsettled
    have hstep : run F env root (messages ++ [m]) =
        (some st', (run F env root messages).2 ++ delivered) := by
      rw [run, List.foldl_append, List.foldl_cons, List.foldl_nil, ← run, step, hst]
      simp only [hhandle]
    exact ⟨st', by rw [hstep], by rwa [hstep]⟩

/-- Collectors are correct: what notifiers receive is one valid signature, each at most
once; a complete collector keeps neither shares nor notifiers; no message ends it; and
with a registration that asks for no companion and valid first shares of as many
operators as the threshold says, it is complete and has served all its notifiers. -/
theorem collector_correct (K : ShareKeys F env validatorPubkey threshold committee)
    (root : Hash256)
    (hmessages : ∀ m ∈ messages, m.Matches validatorPubkey threshold companion committee)
    (hnotifiers : (messages.filterMap notifier).Nodup) :
    (∀ e ∈ (run F env root messages).2, ∃ key, env.bls.decompress validatorPubkey = some key ∧
      env.bls.verify key root e.2 = true) ∧
    ((run F env root messages).2.map Prod.fst).Nodup ∧
    (∀ e ∈ (run F env root messages).2, ∀ e' ∈ (run F env root messages).2, e.2 = e'.2) ∧
    ∃ st, (run F env root messages).1 = some st ∧
      (st.fullSignature.isSome = true → st.signatureShare.entries = [] ∧ st.notifiers = []) ∧
      ∀ operators : List OperatorId, companion = none → operators.Nodup →
        (∃ m ∈ messages, m.isRegistration = true) → threshold ≤ operators.length →
        (∀ i ∈ operators, ∃ s, firstShare messages i = some s ∧
          env.shareIsValid K.keys root i s = true) →
        st.fullSignature.isSome = true ∧ ∀ n ∈ messages.filterMap notifier,
          n ∈ (run F env root messages).2.map Prod.fst := by
  obtain ⟨st, hst, hgathered, hwaiting⟩ :=
    settled_run (K := K) root hmessages
  have hnodup := hgathered.notifiers_perm.nodup_iff.mpr hnotifiers
  refine ⟨?_, (List.nodup_append.mp hnodup).1, ?_, st, hst, ?_, ?_⟩
  · intro e he
    exact ⟨_, K.decompress_eq, (hgathered.full _ (hgathered.received_eq e he)).1⟩
  · intro e he e' he'
    exact Option.some.inj ((hgathered.received_eq e he).symm.trans (hgathered.received_eq e' he'))
  · intro hfull
    obtain ⟨s, hs⟩ := Option.isSome_iff_exists.mp hfull
    exact ⟨(hgathered.full s hs).2.1, (hgathered.full s hs).2.2.1⟩
  · intro operators hcompanion hoperators hregistered hlength hvalid
    have hfull : st.fullSignature.isSome = true := by
      -- otherwise the shares of these operators would all be there
      by_contra hnone
      rw [Option.not_isSome_iff_eq_none] at hnone
      have hlt := hwaiting (hgathered.registered_iff.mpr hregistered) hnone
      have hsubset : operators ⊆ st.signatureShare.entries.map Prod.fst := by
        intro i hi
        obtain ⟨s, hfirst, hs⟩ := hvalid i hi
        obtain ⟨share, hget, -⟩ := hgathered.kept hcompanion hnone i s hfirst hs
        exact List.mem_map.mpr ⟨_, SortedMap.get?_eq_some_iff.mp hget, rfl⟩
      have hle := (hoperators.subperm hsubset).length_le
      rw [List.length_map] at hle
      omega
    refine ⟨hfull, ?_⟩
    obtain ⟨s, hs⟩ := Option.isSome_iff_exists.mp hfull
    have hperm := hgathered.notifiers_perm
    rw [(hgathered.full s hs).2.2.1, List.append_nil] at hperm
    exact fun n hn => hperm.mem_iff.mpr hn

end SignatureCollectorState

namespace Sample

open CollectorMessageKind SignatureCollectorState

def toyBls : Bls ℚ ℚ (Option ℚ) where
  decompress key := key.toList.head?.map fun b => (b.toNat : ℚ)
  point := id
  fromPoint := some
  verifyPoint key _ g := decide (g = key)

def toyKey (b : UInt8) : PublicKeyBytes := ⟨b :: List.replicate 47 0, by simp⟩

def toyShares : SortedMap OperatorId PublicKeyBytes :=
  ⟨[(⟨1⟩, toyKey 3), (⟨2⟩, toyKey 7), (⟨3⟩, toyKey 13), (⟨4⟩, toyKey 21)], by decide⟩

def collectorEnv : CollectorEnv ℚ ℚ (Option ℚ) where
  bls := toyBls
  walk := List.reverse
  getSharePubkeysForValidator _ := some toyShares

theorem lawful_toyBls : toyBls.Lawful ℚ (1 : ℚ) fun _ => (1 : ℚ) where
  scalar_injective a b h := UInt64.toNat_inj.mp (Nat.cast_injective h)
  point_fromPoint _ := rfl
  fromPoint_point _ _ h := h.symm
  verifyPoint_iff k _ g := by simp [toyBls]

open Polynomial in
noncomputable def shareKeys :
    ShareKeys ℚ collectorEnv (toyKey 1) 3 [⟨1⟩, ⟨2⟩, ⟨3⟩, ⟨4⟩] where
  generator := 1
  hashToCurve := fun _ => 1
  lawful := lawful_toyBls
  walk_perm es := List.reverse_perm es
  two_le := by decide
  polynomial := 1 + X + X ^ 2
  degree_lt := by
    have hdegree : (1 + X + X ^ 2 : ℚ[X]).degree ≤ 2 := by compute_degree
    exact lt_of_le_of_lt hdegree (by decide)
  decompress_eq := by simp [collectorEnv, toyBls, toyKey]
  keys := toyShares
  fetch_eq := rfl
  key_eq := by
    simp [collectorEnv, toyBls, toyShares, toyKey, SortedMap.get?, SortedMap.lookup]
    norm_num

def collectorMessages : List (CollectorMessageKind (Option ℚ)) :=
  [.partialSignature ⟨1⟩ none none, .registerNotifier (some 0) none 3 (toyKey 1),
    .partialSignature ⟨2⟩ (some 7) none, .partialSignature ⟨3⟩ (some 13) none,
    .partialSignature ⟨1⟩ (some 4) none, .partialSignature ⟨4⟩ (some 21) none,
    .registerNotifier (some 1) none 3 (toyKey 1)]

theorem collector_correct_wrong_share : ∃ st,
    (run ℚ collectorEnv Hash256.default collectorMessages).1 = some st ∧
      st.fullSignature.isSome = true ∧
        ∀ n ∈ [0, 1],
          n ∈ (run ℚ collectorEnv Hash256.default collectorMessages).2.map Prod.fst := by
  have hmatches : ∀ m ∈ collectorMessages,
      m.Matches (toyKey 1) 3 none [⟨1⟩, ⟨2⟩, ⟨3⟩, ⟨4⟩] := by
    simp [collectorMessages, Matches]
  have hvalid : ∀ i ∈ [(⟨2⟩ : OperatorId), ⟨3⟩, ⟨4⟩], ∃ s, firstShare collectorMessages i = some s ∧
      collectorEnv.shareIsValid toyShares Hash256.default i s = true := by
    intro i hi
    fin_cases hi
    · exact ⟨some 7, rfl, by decide +kernel⟩
    · exact ⟨some 13, rfl, by decide +kernel⟩
    · exact ⟨some 21, rfl, by decide +kernel⟩
  obtain ⟨-, -, -, st, hst, -, hcomplete⟩ :=
    collector_correct shareKeys Hash256.default hmatches (by decide)
  obtain ⟨hfull, hserved⟩ := hcomplete [⟨2⟩, ⟨3⟩, ⟨4⟩] rfl (by decide)
    ⟨_, List.mem_cons_of_mem _ List.mem_cons_self, rfl⟩ (by decide) hvalid
  exact ⟨st, hst, hfull, hserved⟩

end Sample

end Anchor
