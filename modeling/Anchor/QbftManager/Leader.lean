import Mathlib
import Anchor.Library.KeySort
import Anchor.Validator.Run

/-!
# Leaders

The instance and the validator compute the leader of a round on their own: the
instance adds the height, the round and, after the Boole fork, the epoch, and then
reduces the sum; the validator reduces the height first.  Both sums are machine
words.  As long as no addition overflows both name the same member, and the leadership
passes through the whole sorted committee.
-/

namespace Anchor

namespace QbftManager

inductive DecideError where
  | ownOperatorIdUnknown
  | inconsistentMessageId
  | config (error : ConfigBuilderError)
deriving DecidableEq

section Manager

variable (schedule : ForkSchedule) {slotsPerEpoch : UInt64} (hslots : slotsPerEpoch ≠ 0)
  (height : UInt64)

/-- The leader function of an instance; the epoch counts from the Boole fork on. -/
def leaderFn : DefaultLeaderFunction :=
  ⟨slotsPerEpoch, hslots, schedule.activeFork (height.toNat / slotsPerEpoch.toNat) ≥ .boole⟩

def decideConfig (operatorId : Option OperatorId) (messageId : MessageId)
    (committeeMembers : IndexSet OperatorId) : Except DecideError (Config DefaultLeaderFunction) :=
  match operatorId with
  | none => .error .ownOperatorIdUnknown
  | some operatorId =>
    match messageId.role.bind Role.maxRound with
    | none => .error .inconsistentMessageId
    | some maxRound =>
      (((ConfigBuilder.newWithLeaderFn operatorId height committeeMembers
        (leaderFn schedule hslots height)).withMaxRounds maxRound.toNat).build).mapError .config

variable {schedule hslots height}

theorem decideConfig_eq_ok {operatorId : Option OperatorId} {messageId : MessageId}
    {committeeMembers : IndexSet OperatorId} {config : Config DefaultLeaderFunction}
    (h : decideConfig schedule hslots height operatorId messageId committeeMembers = .ok config) :
    config.leaderFn = leaderFn schedule hslots height ∧ config.instanceHeight = height ∧
      config.committeeMembers = committeeMembers ∧ committeeMembers.toList ≠ [] := by
  unfold decideConfig at h
  split at h
  · cases h
  split at h
  · cases h
  unfold ConfigBuilder.build at h
  split_ifs at h with hlen hmem hsize hmax hround
  · cases h
  · cases h
  · cases h
  · cases h
    exact ⟨rfl, rfl, rfl, List.ne_nil_of_mem hmem⟩
  · cases h
  · cases h

end Manager

end QbftManager

/-! ## The sums -/

/-- An addition of machine words, unless it overflows. -/
def addU64? (a b : ℕ) : Option ℕ := if a + b < 2 ^ 64 then some (a + b) else none

theorem isSome_addU64? {a b : ℕ} : (addU64? a b).isSome = true ↔ a + b < 2 ^ 64 := by
  simp [addU64?]

theorem isSome_addU64?_bind {a b : ℕ} {k : ℕ → Option ℕ} :
    ((addU64? a b).bind k).isSome = true ↔ a + b < 2 ^ 64 ∧ (k (a + b)).isSome = true := by
  unfold addU64?
  split_ifs with h
  · rw [Option.bind_some, and_iff_right h]
  · simp only [Option.bind_none, Option.isSome_none, Bool.false_eq_true, false_iff, not_and]
    exact fun hlt => absurd hlt h

namespace DefaultLeaderFunction

variable (f : DefaultLeaderFunction) (round : Round) (height : UInt64)

def epochShift : ℕ := if f.includeEpochShift then height.toNat / f.slotsPerEpoch.toNat else 0

def leaderSum : ℕ := round.get - 1 + height.toNat + f.epochShift height

/-- No addition of the instance overflows. -/
def NoOverflow : Prop :=
  ((addU64? (round.get - 1) height.toNat).bind (addU64? · (f.epochShift height))).isSome = true

instance : Decidable (f.NoOverflow round height) := inferInstanceAs (Decidable (_ = true))

variable {f round height} {committee : IndexSet OperatorId}

theorem noOverflow_iff : f.NoOverflow round height ↔ f.leaderSum round height < 2 ^ 64 := by
  rw [NoOverflow, isSome_addU64?_bind, isSome_addU64?, leaderSum]
  omega

theorem leader_eq_getElem? (h : f.NoOverflow round height) :
    f.leader round height committee =
      (committee.toList.insertionSort (· ≤ ·))[
        f.leaderSum round height % (committee.toList.insertionSort (· ≤ ·)).length]? := by
  change (committee.toList.insertionSort (· ≤ ·))[f.leaderSum round height % 2 ^ 64 %
    (committee.toList.insertionSort (· ≤ ·)).length]? = _
  rw [Nat.mod_eq_of_lt (noOverflow_iff.mp h)]

theorem leaderFunction_eq_true {i : OperatorId} :
    LeaderFunction.leaderFunction f i round height committee = true ↔
      f.leader round height committee = some i := decide_eq_true_iff

theorem exists_leader (hne : committee.toList ≠ []) :
    ∃ i ∈ committee.toList, f.leader round height committee = some i := by
  have hlength : (committee.toList.insertionSort (· ≤ ·)).length ≠ 0 := by
    rw [List.length_insertionSort]
    exact fun hzero => hne (List.length_eq_zero_iff.mp hzero)
  have hindex := Nat.mod_lt (f.leaderSum round height % 2 ^ 64) (Nat.pos_of_ne_zero hlength)
  refine ⟨_, ?_, List.getElem?_eq_getElem hindex⟩
  exact (List.mem_insertionSort _).mp (List.getElem_mem hindex)

theorem NoOverflow.mono {round' : Round} (h : f.NoOverflow round' height) (hle : round ≤ round') :
    f.NoOverflow round height := by
  have hget := Round.le_def.mp hle
  rw [noOverflow_iff, leaderSum] at h ⊢
  omega

theorem existsUnique_round_of_noOverflow {first last : Round}
    (hturn : last.get + 1 = first.get + committee.len) (h : f.NoOverflow last height)
    {i : OperatorId} (hi : i ∈ committee.toList) :
    ∃! round : Round, first ≤ round ∧ round ≤ last ∧ f.leader round height committee = some i := by
  have hpos := first.pos
  have hlength : (committee.toList.insertionSort (· ≤ ·)).length = committee.len :=
    List.length_insertionSort _ _
  have hnodup : ((committee.toList.insertionSort (· ≤ ·)).rotate
      (f.leaderSum first height)).Nodup := by
    rw [List.nodup_rotate]
    exact (List.perm_insertionSort _ _).nodup_iff.mpr committee.nodup
  have hmem : i ∈ (committee.toList.insertionSort (· ≤ ·)).rotate (f.leaderSum first height) := by
    rw [List.mem_rotate, List.mem_insertionSort]
    exact hi
  have hleader : ∀ round : Round, first ≤ round → round ≤ last →
      f.leader round height committee =
        ((committee.toList.insertionSort (· ≤ ·)).rotate (f.leaderSum first height))[
          round.get - first.get]? := by
    intro round hfirst hlast
    have hle := Round.le_def.mp hfirst
    have hle' := Round.le_def.mp hlast
    have hsum : f.leaderSum round height =
        (round.get - first.get) + f.leaderSum first height := by
      unfold leaderSum
      omega
    rw [leader_eq_getElem? (h.mono hlast), hsum, List.getElem?_rotate]
    rw [hlength]
    omega
  obtain ⟨j, hj, hjget⟩ := List.getElem_of_mem hmem
  have hjlen : j < committee.len := by rwa [List.length_rotate, hlength] at hj
  have hjbound : first.get + j < 2 ^ 64 := by
    have := last.lt
    omega
  refine ⟨⟨first.get + j, by omega, hjbound⟩, ⟨Round.le_def.mpr (Nat.le_add_right _ _),
    Round.le_def.mpr (by simp only; omega), ?_⟩, ?_⟩
  · rw [hleader _ (Round.le_def.mpr (Nat.le_add_right _ _))
      (Round.le_def.mpr (by simp only; omega)),
      Nat.add_sub_cancel_left, List.getElem?_eq_getElem hj, hjget]
  · rintro round ⟨hfirst, hlast, hround⟩
    have hle := Round.le_def.mp hfirst
    rw [hleader round hfirst hlast] at hround
    obtain ⟨hindex, hget⟩ := List.getElem?_eq_some_iff.mp hround
    have hsame := (List.Nodup.getElem_inj_iff hnodup).mp (hget.trans hjget.symm)
    apply Round.ext
    simp only
    omega

end DefaultLeaderFunction

/-! ## Agreement with the validator -/

namespace DutyContext

variable {K : Type} (ctx : DutyContext K) (height : UInt64) (round : Round)

def proposerShift : ℕ :=
  if ctx.chain.forkSchedule.activeFork (ctx.chain.epochOf height.toNat) ≥ .boole then
    ctx.chain.epochOf height.toNat
  else 0

def proposerSum : ℕ :=
  height.toNat % ctx.committeeMembers.len + round.get - 1 + ctx.proposerShift height

/-- No addition of the validator overflows, also the one before the first round is subtracted. -/
def NoOverflow : Prop :=
  ((addU64? (height.toNat % ctx.committeeMembers.len) round.get).bind fun s =>
    addU64? (s - 1) (ctx.proposerShift height)).isSome = true

instance : Decidable (ctx.NoOverflow height round) := inferInstanceAs (Decidable (_ = true))

variable {ctx height round} in
theorem noOverflow_iff : ctx.NoOverflow height round ↔
    height.toNat % ctx.committeeMembers.len + round.get < 2 ^ 64 ∧
      ctx.proposerSum height round < 2 ^ 64 := by
  rw [NoOverflow, isSome_addU64?_bind, isSome_addU64?, proposerSum]

theorem roundRobinProposer_eq_ok {i : OperatorId} (h : ctx.proposerSum height round < 2 ^ 64)
    (hi : (ctx.committeeMembers.toList.insertionSort (· ≤ ·))[
      ctx.proposerSum height round % ctx.committeeMembers.len]? = some i) :
    ctx.roundRobinProposer height round.toU64 = .ok i := by
  have hlength : (ctx.committeeMembers.toList.insertionSort (· ≤ ·)).length =
      ctx.committeeMembers.len := List.length_insertionSort _ _
  have hsum : (height.toNat % ctx.committeeMembers.len + round.toU64.toNat - firstRound.toNat +
      if ctx.chain.forkSchedule.activeFork (ctx.chain.epochOf height.toNat) ≥ .boole then
        ctx.chain.epochOf height.toNat
      else 0) = ctx.proposerSum height round := by
    rw [Round.toNat_toU64]
    rfl
  unfold roundRobinProposer
  simp only [hlength, hsum, Nat.mod_eq_of_lt h, hi]

end DutyContext

namespace QbftManager

open DefaultLeaderFunction

variable {K : Type}

/-- If no addition overflows in the last of some rounds, none does in any of them, each round has
one leader among the members, the validator names it too, and a turn of rounds passes through the
whole committee. -/
theorem leaders_agree_of_noOverflow (schedule : ForkSchedule) {slotsPerEpoch : UInt64}
    (hslots : slotsPerEpoch ≠ 0) (height : UInt64) (committee : IndexSet OperatorId)
    (hcommittee : committee.toList ≠ []) (ctx : DutyContext K)
    (hmembers : ctx.committeeMembers.toList.Perm committee.toList)
    (hepochs : ctx.chain.slotsPerEpoch = slotsPerEpoch.toNat)
    (hschedule : ctx.chain.forkSchedule = schedule) (last : Round)
    (h : (leaderFn schedule hslots height).NoOverflow last height)
    (hctx : ctx.NoOverflow height last) :
    (∀ operatorId messageId config,
      decideConfig schedule hslots height operatorId messageId committee = .ok config →
        config.leaderFn = leaderFn schedule hslots height ∧ config.instanceHeight = height ∧
          config.committeeMembers = committee) ∧
    (∀ round ≤ last,
      (leaderFn schedule hslots height).NoOverflow round height ∧ ctx.NoOverflow height round ∧
      ∃! i, i ∈ committee.toList ∧
        LeaderFunction.leaderFunction (leaderFn schedule hslots height) i round height committee =
          true ∧
        ctx.roundRobinProposer height round.toU64 = .ok i) ∧
    ∀ first : Round, last.get + 1 = first.get + committee.len → ∀ i ∈ committee.toList,
      ∃! round : Round, first ≤ round ∧ round ≤ last ∧
        LeaderFunction.leaderFunction (leaderFn schedule hslots height) i round height committee =
          true := by
  set f := leaderFn schedule hslots height with hf
  have hlen : ctx.committeeMembers.len = committee.len := hmembers.length_eq
  have hsorted : ctx.committeeMembers.toList.insertionSort (· ≤ ·) =
      committee.toList.insertionSort (· ≤ ·) :=
    KeySort.insertionSort_le_eq_of_perm hmembers
  have hlength : (committee.toList.insertionSort (· ≤ ·)).length = committee.len :=
    List.length_insertionSort _ _
  have hproposer : ∀ round : Round, ctx.proposerSum height round =
      height.toNat % committee.len + (round.get - 1) + f.epochShift height := by
    intro round
    have hpos := round.pos
    have hshift : ctx.proposerShift height = f.epochShift height := by
      unfold epochShift DutyContext.proposerShift Chain.epochOf
      simp only [hf, leaderFn, hepochs, hschedule, decide_eq_true_eq]
    unfold DutyContext.proposerSum
    rw [hshift, hlen]
    omega
  refine ⟨fun operatorId messageId config hconfig => ?_, fun round hround => ?_,
    fun first hturn i hi => ?_⟩
  · obtain ⟨hleaderFn, hheight, hconfigured, -⟩ := decideConfig_eq_ok hconfig
    exact ⟨hleaderFn, hheight, hconfigured⟩
  · have hsum := h.mono hround
    have hmod : ctx.proposerSum height round % committee.len =
        f.leaderSum round height % committee.len := by
      rw [hproposer, leaderSum, add_assoc, Nat.mod_add_mod]
      congr 1
      omega
    have hfits : ctx.NoOverflow height round := by
      have hget := Round.le_def.mp hround
      obtain ⟨hfirst, hlast⟩ := DutyContext.noOverflow_iff.mp hctx
      refine DutyContext.noOverflow_iff.mpr ⟨by omega, lt_of_le_of_lt ?_ hlast⟩
      rw [hproposer, hproposer]
      omega
    refine ⟨hsum, hfits, ?_⟩
    obtain ⟨i, hi, hleader⟩ : ∃ i ∈ committee.toList, f.leader round height committee = some i :=
      exists_leader hcommittee
    refine ⟨i, ⟨hi, leaderFunction_eq_true.mpr hleader, ?_⟩, ?_⟩
    · apply ctx.roundRobinProposer_eq_ok height round (DutyContext.noOverflow_iff.mp hfits).2
      rw [hsorted, hlen, hmod, ← hlength, ← leader_eq_getElem? hsum]
      exact hleader
    · rintro j ⟨-, hj, -⟩
      exact Option.some.inj ((leaderFunction_eq_true.mp hj).symm.trans hleader)
  · obtain ⟨round, ⟨hfirst, hlast, hleader⟩, hunique⟩ :=
      existsUnique_round_of_noOverflow hturn h hi
    refine ⟨round, ⟨hfirst, hlast, leaderFunction_eq_true.mpr hleader⟩, ?_⟩
    rintro round' ⟨hfirst', hlast', hleader'⟩
    exact hunique round' ⟨hfirst', hlast', leaderFunction_eq_true.mp hleader'⟩

end QbftManager

namespace Sample

open QbftManager

def sevenMembers : IndexSet OperatorId :=
  ⟨[⟨3⟩, ⟨1⟩, ⟨2⟩, ⟨7⟩, ⟨5⟩, ⟨4⟩, ⟨6⟩], by decide⟩

def leaderContext : DutyContext OperatorId :=
  ⟨⟨crypto, sevenMembers, some⟩, chain, .committee, [], 0, none, duties⟩

def leaderFnAt (height : UInt64) : DefaultLeaderFunction :=
  leaderFn chain.forkSchedule (show (8 : UInt64) ≠ 0 by decide) height

/-- The leader of the second round of height 100. -/
theorem leaders_agree_seven :
    LeaderFunction.leaderFunction (leaderFnAt 100) ⟨4⟩ second 100 sevenMembers = true ∧
    leaderContext.roundRobinProposer 100 second.toU64 = .ok ⟨4⟩ := by
  obtain ⟨-, hround, -⟩ := leaders_agree_of_noOverflow chain.forkSchedule
    (show (8 : UInt64) ≠ 0 by decide) 100 sevenMembers (by decide) leaderContext (List.Perm.refl _)
    rfl rfl second (by decide +kernel) (by decide +kernel)
  obtain ⟨-, -, i, ⟨-, hleads, hproposer⟩, -⟩ := hround second le_rfl
  have hi : i = ⟨4⟩ := Option.some.inj ((of_decide_eq_true hleads).symm.trans (by decide +kernel))
  subst hi
  exact ⟨hleads, hproposer⟩

/-- At the largest height the sum overflows in the second round: the instance names operator 1 and
the validator operator 3, and operator 2 leads both the first and the third round. -/
theorem leaders_differ_at_largest_height :
    ¬ (leaderFnAt 18446744073709551615).NoOverflow second 18446744073709551615 ∧
    LeaderFunction.leaderFunction (leaderFnAt 18446744073709551615) ⟨1⟩ second
      18446744073709551615 sevenMembers = true ∧
    leaderContext.roundRobinProposer 18446744073709551615 second.toU64 = .ok ⟨3⟩ ∧
    LeaderFunction.leaderFunction (leaderFnAt 18446744073709551615) ⟨2⟩ Round.default
      18446744073709551615 sevenMembers = true ∧
    LeaderFunction.leaderFunction (leaderFnAt 18446744073709551615) ⟨2⟩
      (Round.ofU64 3 (by decide)) 18446744073709551615 sevenMembers = true := by
  decide +kernel

end Sample

end Anchor
