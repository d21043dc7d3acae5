import Mathlib
import Anchor.Network.CrossInstance
import Anchor.QbftManager.Instance

/-!
# Quiescence after the decision

The loop of `qbft_instance` drops an instance at the end of the turn in which it is
done.  Within a turn there is one place where a finished instance still gets
messages: the replay of the buffer when the task is initialized.  All handlers but
one leave a finished instance alone.  The handler of proposals compares the state
only for the current round, so a justified proposal of a later round reopens it.
-/

namespace Anchor

open Ssz

namespace Qbft

variable {F D : Type} [LeaderFunction F] [QbftData D]

/-- The message is a proposal for a later round that the instance has not seen. -/
def Reopens (q : Qbft F D) (w : WrappedQbftMessage) : Prop :=
  ∃ s r d, q.IsProposal w s r d ∧ q.currentRound < r ∧ s ∉ q.proposeContainer.senders r

variable {q q' : Qbft F D} {w : WrappedQbftMessage}

theorem completed_new (config : Config F) (startData : D) (dataValidator : D → D → Bool)
    (identifier : MessageId) :
    (Qbft.new config startData dataValidator identifier).completed = none := by
  obtain ⟨data, out, -, heq⟩ := exists_new config startData dataValidator identifier
  rw [heq]
  rfl

theorem Transition.state_of_completed {e : Event} (h : Transition q e q')
    (hnone : q.completed = none) (hdone : q'.completed ≠ none) : q'.state = .complete := by
  cases h with
  | committed hw => rfl
  | decided hw => rfl
  | timedOut hlast => rfl
  | _ => exact absurd hnone hdone

theorem Transition.quiet (h : Transition q (.receive w) q') (hdone : q.completed ≠ none)
    (hstate : q.state = .complete) (hw : ¬ q.Reopens w) :
    q'.state = .complete ∧ q'.sent = q.sent := by
  have hlate : ∀ {r : Round}, q.IsRoundChange w w.signer r → False := by
    intro r hchange
    have hlt := hchange.state_lt
    rw [hstate] at hlt
    exact lt_irrefl _ hlt
  cases h with
  | ignored => exact ⟨hstate, rfl⟩
  | proposalRepeated hp hsender => exact ⟨hstate, rfl⟩
  | proposalStored hp hadd hflag hround => exact ⟨hstate, rfl⟩
  | proposalAccepted hp hadd hflag =>
    refine absurd ⟨_, _, _, hp, lt_of_le_of_ne hp.fromSigner.currentRound_le fun heq => ?_,
      MessageContainer.notMem_senders_of_addMessage hadd⟩ hw
    have hawaiting := hp.awaiting heq.symm
    rw [hstate] at hawaiting
    cases hawaiting
  | prepareStored hv hadd => exact absurd hv.completed_eq hdone
  | prepared hv hadd hflag hquorum hprepare => exact absurd hv.completed_eq hdone
  | commitStored hv hadd hflag hroot => exact absurd hv.completed_eq hdone
  | committed hv => exact absurd hv.completed_eq hdone
  | decided hd => exact ⟨rfl, rfl⟩
  | roundChangeStored hc hadd hold =>
    exact (hlate (hc.fromSigner.signer_eq ▸ hc)).elim
  | roundChangeQuorum hc hadd hbefore hquorum hout hstart =>
    exact (hlate (hc.fromSigner.signer_eq ▸ hc)).elim
  | roundChangePartial hc hadd hnone hlowest hout =>
    exact (hlate (hc.fromSigner.signer_eq ▸ hc)).elim

theorem Reopens.state_apply {K : Type} {ctx : ValidationContext K}
    (hlaw : QbftData.Lawful D ctx.crypto.hashData) (h : q.Reopens w) (hc : q.ContainersOk)
    (ht : Transition q (.receive w) (q.apply (.receive w))) :
    (q.apply (.receive w)).state = .prepare w.qbftMessage.root := by
  obtain ⟨s, r, d, hp, hlt, hnew⟩ := h
  have hne : w.signedMessage.fullData.toList ≠ [] := by
    intro hnil
    have hd := hp.data_eq
    rw [hnil, hlaw.fromSszBytes_nil] at hd
    cases hd
  have hafter := hp.mem_apply hne hnew
  have hbefore : w ∉ q.proposeContainer.getMessagesForRound r :=
    hc.notMem_of_notMem_senders (t := .proposal) hnew hp.fromSigner.signer_eq
  generalize q.apply (.receive w) = q' at *
  cases ht with
  | proposalAccepted => rfl
  | proposalStored hp' hadd hflag hround =>
    -- the round of a message is one number
    have hr := hp'.fromSigner.round_eq.symm.trans hp.fromSigner.round_eq
    rw [hround] at hr
    have hlt' := toU64_lt_iff.mpr hlt
    rw [hr] at hlt'
    exact absurd hlt' (UInt64.lt_irrefl _)
  | _ => exact absurd hafter hbefore

end Qbft

namespace QbftManager

namespace Task

variable {F D : Type}

/-- From a finished instance on there are only finished ones that have sent nothing
more. -/
structure Quiet (values : List (Qbft F D)) : Prop where
  state : ∀ p ∈ values, p.completed ≠ none → p.state = .complete
  after : values.Pairwise fun p q =>
    p.completed ≠ none → q.state = .complete ∧ q.sent = p.sent

theorem quiet_cons {p : Qbft F D} {values : List (Qbft F D)} :
    Quiet (p :: values) ↔ (p.completed ≠ none → p.state = .complete) ∧
      (∀ q ∈ values, p.completed ≠ none → q.state = .complete ∧ q.sent = p.sent) ∧
      Quiet values := by
  constructor
  · rintro ⟨hstate, hafter⟩
    rw [List.pairwise_cons] at hafter
    exact ⟨hstate p List.mem_cons_self, hafter.1,
      fun q hq => hstate q (List.mem_cons_of_mem _ hq), hafter.2⟩
  · rintro ⟨hp, hpq, hstate, hafter⟩
    refine ⟨fun q hq => ?_, List.pairwise_cons.mpr ⟨hpq, hafter⟩⟩
    rcases List.mem_cons.mp hq with rfl | hq
    · exact hp
    · exact hstate q hq

theorem quiet_append {values values' : List (Qbft F D)} (h : ∀ p ∈ values, p.completed = none) :
    Quiet (values ++ values') ↔ Quiet values' := by
  induction values with
  | nil => rfl
  | cons p values ih =>
    have hp := h p List.mem_cons_self
    rw [List.cons_append, quiet_cons, ih fun q hq => h q (List.mem_cons_of_mem _ hq)]
    exact ⟨fun hq => hq.2.2,
      fun hq => ⟨fun hne => absurd hp hne, fun _ _ hne => absurd hp hne, hq⟩⟩

def announcement (q : Qbft F D) : Option SignedSSVMessage :=
  q.completedData.bind fun _ => q.aggregatedCommit

/-- The task has sent the commit of its instance if that is done, and nothing else. -/
structure Announced (values : List (Qbft F D)) (s : Task F D) : Prop where
  commits : s.sentCommits = (values.getLast?.bind announcement).toList
  new : ∀ buffer, s.state = some (.uninitialized buffer) → values = []
  pending : ∀ q onCompleted, s.state = some (.initialized q onCompleted) →
    values.getLast? = some q ∧ q.completedData = none

variable [LeaderFunction F] [QbftData D]

def SettlesFrom : Qbft F D → List WrappedQbftMessage → Prop
  | _, [] => True
  | q, w :: buffer =>
    (q.completed ≠ none → ¬ q.Reopens w) ∧ SettlesFrom (q.apply (.receive w)) buffer

def Settles (s : Task F D) (input : RecvResult F D) : Prop :=
  ∀ init buffer, input = .initialization init → s.state = some (.uninitialized buffer) →
    SettlesFrom (Qbft.new init.config init.initial init.validator init.messageId) buffer

inductive SettledRun {K : Type} (ctx : ValidationContext K) :
    List (Qbft F D) → Task F D → Prop where
  | new : SettledRun ctx [] new
  | step {values values' : List (Qbft F D)} {s s' : Task F D} {input : RecvResult F D}
      (h : SettledRun ctx values s) (hinput : s.Admissible ctx input) (hsettles : s.Settles input)
      (hstep : s.step input = some (values', s')) : SettledRun ctx (values ++ values') s'

section Replay

variable {K : Type} {ctx : ValidationContext K} {q last : Qbft F D} {values : List (Qbft F D)}
  {buffer : List WrappedQbftMessage} {w : WrappedQbftMessage}

theorem SettledRun.run {s : Task F D} (h : SettledRun ctx values s) : Run ctx values s := by
  induction h with
  | new => exact Run.new
  | step _ hinput _ hstep ih => exact ih.step hinput hstep

theorem replay_cons_eq_some (hw : w.Sound) (h : replay q (w :: buffer) = some (values, last)) :
    ∃ values', replay (q.apply (.receive w)) buffer = some (values', last) ∧
      values = q :: values' := by
  rw [replay, receive_of_sound hw] at h
  simp only at h
  split at h
  · cases h
  · rename_i values' last' heq
    cases h
    exact ⟨values', heq, rfl⟩

theorem exists_cons_of_replay (hbuffer : ∀ w ∈ buffer, w.Sound)
    (h : replay q buffer = some (values, last)) : ∃ values', values = q :: values' := by
  cases buffer with
  | nil =>
    cases h
    exact ⟨[], rfl⟩
  | cons w buffer =>
    obtain ⟨values', -, rfl⟩ := replay_cons_eq_some (hbuffer w List.mem_cons_self) h
    exact ⟨values', rfl⟩

theorem completed_eq_none_of_replay (hq : q.Reachable ctx) (hbuffer : ∀ w ∈ buffer, ctx.Validated w)
    (h : replay q buffer = some (values, last)) (hlast : last.completed = none) :
    ∀ p ∈ values, p.completed = none := by
  induction buffer generalizing q values with
  | nil =>
    cases h
    simpa using hlast
  | cons w buffer ih =>
    have hvalid := hbuffer w List.mem_cons_self
    have hadmissible : q.Admissible ctx (.receive w) := Or.inl hvalid
    obtain ⟨values', hreplay, rfl⟩ := replay_cons_eq_some hvalid.sound h
    have hrest : ∀ w' ∈ buffer, ctx.Validated w' :=
      fun w' hw' => hbuffer w' (List.mem_cons_of_mem _ hw')
    have hnone := ih (hq.step hadmissible) hrest hreplay
    obtain ⟨tail, rfl⟩ := exists_cons_of_replay (fun w' hw' => (hrest w' hw').sound) hreplay
    intro p hp
    rcases List.mem_cons.mp hp with rfl | hp
    · exact (hadmissible.transition hq.grounded).completed_mono (hnone _ List.mem_cons_self)
    · exact hnone p hp

/-- A replay is quiet exactly if no message of the buffer is taken up by a finished
instance. -/
theorem quiet_iff_settlesFrom (hlaw : QbftData.Lawful D ctx.crypto.hashData)
    (hq : q.Reachable ctx) (hstate : q.completed ≠ none → q.state = .complete)
    (hbuffer : ∀ w ∈ buffer, ctx.Validated w) (h : replay q buffer = some (values, last)) :
    Quiet values ↔ SettlesFrom q buffer := by
  induction buffer generalizing q values with
  | nil =>
    cases h
    simp only [SettlesFrom, iff_true]
    exact quiet_cons.mpr ⟨hstate, by simp, by simp, List.Pairwise.nil⟩
  | cons w buffer ih =>
    have hvalid := hbuffer w List.mem_cons_self
    have hadmissible : q.Admissible ctx (.receive w) := Or.inl hvalid
    have htransition := hadmissible.transition hq.grounded
    have hrest : ∀ w' ∈ buffer, ctx.Validated w' :=
      fun w' hw' => hbuffer w' (List.mem_cons_of_mem _ hw')
    obtain ⟨values', hreplay, rfl⟩ := replay_cons_eq_some hvalid.sound h
    obtain ⟨tail, rfl⟩ := exists_cons_of_replay (fun w' hw' => (hrest w' hw').sound) hreplay
    rw [quiet_cons, SettlesFrom]
    constructor
    · rintro ⟨-, hafter, hquiet⟩
      have hnext := hquiet.state _ List.mem_cons_self
      refine ⟨fun hdone hreopens => ?_, (ih (hq.step hadmissible) hnext hrest hreplay).mp hquiet⟩
      have hcomplete := (hafter _ List.mem_cons_self hdone).1
      rw [hreopens.state_apply hlaw hq.containersOk htransition] at hcomplete
      cases hcomplete
    · rintro ⟨hw, hsettles⟩
      have hnext : (q.apply (.receive w)).completed ≠ none →
          (q.apply (.receive w)).state = .complete := by
        intro hdone
        by_cases hnone : q.completed = none
        · exact htransition.state_of_completed hnone hdone
        · exact (htransition.quiet hnone (hstate hnone) (hw hnone)).1
      have hquiet := (ih (hq.step hadmissible) hnext hrest hreplay).mpr hsettles
      refine ⟨hstate, fun p hp hdone => ?_, hquiet⟩
      obtain ⟨hcomplete, hsent⟩ := htransition.quiet hdone (hstate hdone) (hw hdone)
      rcases List.mem_cons.mp hp with rfl | hp
      · exact ⟨hcomplete, hsent⟩
      · obtain ⟨hp', hsent'⟩ := (List.pairwise_cons.mp hquiet.after).1 p hp
          (mt htransition.completed_mono hdone)
        exact ⟨hp', hsent'.trans hsent⟩

end Replay

section Runs

variable {K : Type} {ctx : ValidationContext K} {q : Qbft F D} {values values' : List (Qbft F D)}
  {s s' : Task F D} {input : RecvResult F D}

omit [LeaderFunction F] [QbftData D] in
theorem state_completeIfDone {onCompleted onCompleted' : List ℕ} {q' : Qbft F D}
    (h : (s.completeIfDone q onCompleted).state = some (.initialized q' onCompleted')) :
    q' = q ∧ q.completedData = none := by
  unfold completeIfDone at h
  split at h
  · cases h
  · rename_i hnone
    cases h
    exact ⟨rfl, hnone⟩

/-- A task that goes on has only had unfinished instances. -/
def Unfinished (values : List (Qbft F D)) (s : Task F D) : Prop :=
  ∀ q onCompleted, s.state = some (.initialized q onCompleted) →
    q.completed = none ∧ ∀ p ∈ values, p.completed = none

theorem settles_of_state (h : ∀ buffer, s.state ≠ some (.uninitialized buffer)) :
    s.Settles input :=
  fun _ buffer _ hs => absurd hs (h buffer)

theorem settles_of_input (h : ∀ init, input ≠ .initialization init) : s.Settles input :=
  fun init _ hinit => absurd hinit (h init)

/-- What a turn can add to the instance values: nothing, a replay, or one value. -/
theorem step_cases (hinput : s.Admissible ctx input)
    (hstep : s.step input = some (values', s')) (hok : Ok ctx values s) :
    (values' = [] ∧ s.Settles input ∧
      ∀ q onCompleted, s'.state = some (.initialized q onCompleted) →
        ∃ onCompleted', s.state = some (.initialized q onCompleted')) ∨
    (∃ init buffer last, input = .initialization init ∧
      s.state = some (.uninitialized buffer) ∧
      replay (Qbft.new init.config init.initial init.validator init.messageId) buffer =
        some (values', last) ∧
      ∀ q onCompleted, s'.state = some (.initialized q onCompleted) →
        q = last ∧ last.completedData = none) ∨
    (∃ q onCompleted e, s.state = some (.initialized q onCompleted) ∧ q.Admissible ctx e ∧
      values' = [q.apply e] ∧
      ∀ q' onCompleted', s'.state = some (.initialized q' onCompleted') →
        q' = q.apply e ∧ (q.apply e).completedData = none) := by
  obtain ⟨state, registered, results, sentCommits⟩ := s
  cases input with
  | initialization init =>
    rcases state with _ | (buffer | ⟨q, onCompleted⟩ | value)
    · cases hstep
      exact Or.inl ⟨rfl, settles_of_state (by simp), by simp⟩
    · right; left
      simp only [step] at hstep
      split at hstep
      · cases hstep
      · rename_i values'' last hreplay
        cases hstep
        exact ⟨init, buffer, last, rfl, rfl, hreplay, fun _ _ hs => state_completeIfDone hs⟩
    · cases hstep
      refine Or.inl ⟨rfl, settles_of_state (by simp), fun q' onCompleted' hs => ?_⟩
      obtain ⟨rfl, -⟩ := state_completeIfDone hs
      exact ⟨onCompleted, rfl⟩
    · cases hstep
      exact Or.inl ⟨rfl, settles_of_state (by simp), by simp⟩
  | networkMessage w =>
    rcases state with _ | (buffer | ⟨q, onCompleted⟩ | value)
    · cases hstep
      exact Or.inl ⟨rfl, settles_of_input (by simp), by simp⟩
    · simp only [step] at hstep
      split at hstep <;> cases hstep
      · exact Or.inl ⟨rfl, settles_of_input (by simp), by simp⟩
      · exact Or.inl ⟨rfl, settles_of_input (by simp), by simp⟩
    · obtain ⟨hq, -⟩ := hok.state
      have hadmissible : q.Admissible ctx (.receive w) := by
        rcases hinput with hvalid | ⟨q', onCompleted', hstate, hloop⟩
        · exact Or.inl hvalid
        · cases hstate
          exact Or.inr hloop
      simp only [step, receive_of_sound (q := q) (hadmissible.sound hq.grounded)] at hstep
      cases hstep
      exact Or.inr (Or.inr ⟨q, onCompleted, .receive w, rfl, hadmissible, rfl,
        fun _ _ hs => state_completeIfDone hs⟩)
    · cases hstep
      exact Or.inl ⟨rfl, settles_of_input (by simp), by simp⟩
  | roundEnd =>
    rcases state with _ | (buffer | ⟨q, onCompleted⟩ | value)
    · cases hstep
      exact Or.inl ⟨rfl, settles_of_input (by simp), by simp⟩
    · cases hstep
      exact Or.inl ⟨rfl, settles_of_input (by simp), by simp⟩
    · cases hstep
      exact Or.inr (Or.inr ⟨q, onCompleted, .endRound, rfl, trivial, rfl,
        fun _ _ hs => state_completeIfDone hs⟩)
    · cases hstep
      exact Or.inl ⟨rfl, settles_of_input (by simp), by simp⟩
  | closed =>
    refine Or.inl ?_
    rcases state with _ | (buffer | ⟨q, onCompleted⟩ | value) <;> cases hstep <;>
      exact ⟨rfl, settles_of_input (by simp), by simp⟩

theorem Unfinished.step (h : Unfinished values s) (hok : Ok ctx values s)
    (hinput : s.Admissible ctx input) (hstep : s.step input = some (values', s')) :
    Unfinished (values ++ values') s' := by
  rcases step_cases hinput hstep hok with ⟨rfl, -, hstate⟩ |
    ⟨init, buffer, last, rfl, hs, hreplay, hstate⟩ | ⟨q, onCompleted, e, hs, he, rfl, hstate⟩
  · intro q onCompleted hq
    obtain ⟨onCompleted', hs⟩ := hstate q onCompleted hq
    rw [List.append_nil]
    exact h q onCompleted' hs
  · intro q onCompleted hq
    obtain ⟨rfl, hnone⟩ := hstate q onCompleted hq
    have hbefore := hok.state
    rw [hs] at hbefore
    obtain ⟨rfl, -, -, hbuffer⟩ := hbefore
    obtain ⟨values'', last, heq, hmem, hreachable, -⟩ := exists_replay
      (Qbft.Reachable.new init.config init.initial init.validator init.messageId) hbuffer
    rw [heq] at hreplay
    cases hreplay
    have hlast := completedData_eq_none (hreachable _ hmem) hnone
    exact ⟨hlast, completed_eq_none_of_replay (Qbft.Reachable.new _ _ _ _) hbuffer heq hlast⟩
  · intro q' onCompleted' hq'
    obtain ⟨rfl, hnone⟩ := hstate q' onCompleted' hq'
    have hbefore := hok.state
    rw [hs] at hbefore
    have hdone := completedData_eq_none (hbefore.1.step he) hnone
    refine ⟨hdone, fun p hp => ?_⟩
    rcases List.mem_append.mp hp with hp | hp
    · exact (h q onCompleted hs).2 p hp
    · rwa [List.mem_singleton.mp hp]

theorem Run.unfinished (hlaw : QbftData.Lawful D ctx.crypto.hashData) (h : Run ctx values s) :
    Unfinished values s := by
  induction h with
  | new => exact fun _ _ hs => nomatch hs
  | step hrun hinput hstep ih => exact ih.step (hrun.ok hlaw) hinput hstep

theorem quiet_step_iff (hlaw : QbftData.Lawful D ctx.crypto.hashData) (h : Run ctx values s)
    (hquiet : Quiet values) (hinput : s.Admissible ctx input)
    (hstep : s.step input = some (values', s')) :
    Quiet (values ++ values') ↔ s.Settles input := by
  have hok := h.ok hlaw
  rcases step_cases hinput hstep hok with ⟨rfl, hsettles, -⟩ |
    ⟨init, buffer, last, rfl, hs, hreplay, -⟩ | ⟨q, onCompleted, e, hs, he, rfl, -⟩
  · rw [List.append_nil]
    exact iff_of_true hquiet hsettles
  · have hbefore := hok.state
    rw [hs] at hbefore
    obtain ⟨rfl, -, -, hbuffer⟩ := hbefore
    have hnew : (Qbft.new init.config init.initial init.validator init.messageId).completed ≠
        none → (Qbft.new init.config init.initial init.validator init.messageId).state =
          .complete := fun hdone => absurd (Qbft.completed_new _ _ _ _) hdone
    rw [List.nil_append, quiet_iff_settlesFrom hlaw (Qbft.Reachable.new _ _ _ _) hnew hbuffer
      hreplay]
    constructor
    · intro hsettles init' buffer' hinit hs'
      cases hinit
      rw [hs] at hs'
      cases hs'
      exact hsettles
    · exact fun hsettles => hsettles init buffer rfl hs
  · have hbefore := hok.state
    rw [hs] at hbefore
    obtain ⟨hnone, hvalues⟩ := h.unfinished hlaw q onCompleted hs
    have hstate := (he.transition hbefore.1.grounded).state_of_completed hnone
    refine iff_of_true ?_ fun init buffer _ hs' => ?_
    · exact (quiet_append hvalues).mpr (quiet_cons.mpr ⟨hstate, by simp, by simp,
        List.Pairwise.nil⟩)
    · rw [hs] at hs'
      cases hs'

omit [LeaderFunction F] [QbftData D] in
theorem announced_completeIfDone (hlast : values.getLast? = some q) (hnone : s.sentCommits = [])
    (onCompleted : List ℕ) : Announced values (s.completeIfDone q onCompleted) := by
  unfold completeIfDone
  split
  · rename_i completed hcompleted
    refine ⟨?_, by simp, by simp⟩
    simp [hnone, hlast, announcement, hcompleted]
  · rename_i hcompleted
    refine ⟨?_, by simp, ?_⟩
    · simp [hnone, hlast, announcement, hcompleted]
    · rintro q' onCompleted' ⟨⟩
      exact ⟨hlast, hcompleted⟩

theorem getLast?_replay {buffer : List WrappedQbftMessage} {last : Qbft F D}
    (h : replay q buffer = some (values, last)) : values.getLast? = some last := by
  induction buffer generalizing q values with
  | nil =>
    cases h
    rfl
  | cons w buffer ih =>
    simp only [replay] at h
    split at h
    · cases h
    split at h
    · cases h
    · rename_i values' last' hreplay
      cases h
      rw [List.getLast?_cons, ih hreplay, Option.getD_some]

theorem Announced.step (h : Announced values s) (hstep : s.step input = some (values', s')) :
    Announced (values ++ values') s' := by
  obtain ⟨state, registered, results, sentCommits⟩ := s
  obtain ⟨hcommits, hnew, hpending⟩ := h
  have hnil : ∀ {q onCompleted}, state = some (.initialized q onCompleted) →
      sentCommits = [] := by
    intro q onCompleted hstate
    obtain ⟨hlast, hnone⟩ := hpending q onCompleted hstate
    simpa [hlast, announcement, hnone] using hcommits
  rcases state with _ | (buffer | ⟨q, onCompleted⟩ | value)
  · cases input <;> cases hstep <;> simpa using ⟨hcommits, hnew, hpending⟩
  · obtain rfl := hnew buffer rfl
    cases input with
    | initialization init =>
      simp only [step] at hstep
      split at hstep
      · cases hstep
      · rename_i hreplay
        cases hstep
        refine announced_completeIfDone (getLast?_replay hreplay) ?_ _
        exact hcommits
    | networkMessage w =>
      simp only [step] at hstep
      split at hstep <;> cases hstep <;> exact ⟨hcommits, fun _ _ => rfl, by simp⟩
    | roundEnd =>
      cases hstep
      exact ⟨hcommits, hnew, hpending⟩
    | closed =>
      cases hstep
      exact ⟨hcommits, by simp, by simp⟩
  · obtain ⟨hlast, hnone⟩ := hpending q onCompleted rfl
    cases input with
    | initialization init =>
      cases hstep
      rw [List.append_nil]
      exact announced_completeIfDone hlast (hnil rfl) _
    | networkMessage w =>
      simp only [step] at hstep
      split at hstep
      · cases hstep
      · cases hstep
        exact announced_completeIfDone (by simp) (hnil rfl) _
    | roundEnd =>
      cases hstep
      exact announced_completeIfDone (by simp) (hnil rfl) _
    | closed =>
      cases hstep
      rw [List.append_nil]
      exact ⟨hcommits, by simp, by simp⟩
  · cases input <;> cases hstep <;> rw [List.append_nil] <;> exact ⟨hcommits, by simp, by simp⟩

theorem Run.announced (h : Run ctx values s) : Announced values s := by
  induction h with
  | new => exact ⟨rfl, fun _ _ => rfl, fun _ _ hs => nomatch hs⟩
  | step _ _ hstep ih => exact ih.step hstep

/-- Once its instance is done, a task sends no message of the instance and leaves the
instance in its final state, in every run in which no buffered message reopens a
finished instance.  A run that has been quiet stays quiet with exactly the turns that
settle.  In every run the aggregated commit of the finished instance is all that the task
sends on its own. -/
theorem quiet_of_settles (hlaw : QbftData.Lawful D ctx.crypto.hashData) :
    (∀ (values : List (Qbft F D)) (s : Task F D), SettledRun ctx values s → Quiet values) ∧
    (∀ (values values' : List (Qbft F D)) (s s' : Task F D) (input : RecvResult F D),
      Run ctx values s → Quiet values → s.Admissible ctx input →
      s.step input = some (values', s') →
        (Quiet (values ++ values') ↔ s.Settles input)) ∧
    ∀ (values : List (Qbft F D)) (s : Task F D), Run ctx values s →
      s.sentCommits = (values.getLast?.bind announcement).toList := by
  refine ⟨fun values s h => ?_, fun values values' s s' input h hquiet hinput hstep =>
    quiet_step_iff hlaw h hquiet hinput hstep, fun values s h => h.announced.commits⟩
  induction h with
  | new => exact ⟨by simp, List.Pairwise.nil⟩
  | step hrun hinput hsettles hstep ih =>
    exact (quiet_step_iff hlaw hrun.run ih hinput hstep).mpr hsettles

end Runs

end Task

end QbftManager

namespace Sample

open QbftManager

theorem length_secondRound (i : OperatorId) :
    (keys.signed identifier i (plainMessage identifier .roundChange 0 2 Hash256.default)
      VariableList.empty).asSszBytes.length ≤ roundChangeJustificationLength := by
  rw [Signing.length_signed, length_plainMessage, VariableList.toList_empty, List.length_nil]
  decide

def lateMessage : QbftMessage :=
  { plainMessage identifier .proposal 0 2 (QbftData.hash (⟨8⟩ : Vote)) with
    roundChangeJustification := ⟨[⟨1⟩, ⟨3⟩, ⟨4⟩].map fun i =>
      ⟨(keys.signed identifier i (plainMessage identifier .roundChange 0 2 Hash256.default)
        VariableList.empty).asSszBytes, length_secondRound i⟩, by simp⟩ }

def lateProposal : WrappedQbftMessage :=
  ⟨keys.signed identifier ⟨2⟩ lateMessage ⟨encodeU64 8, by decide⟩, lateMessage⟩

/-- The decided message alone leaves the task quiet. -/
theorem quiet_decidedCommit :
    ∃ (values : List (Qbft DefaultLeaderFunction Vote)) (s : Task DefaultLeaderFunction Vote),
      Task.SettledRun ctx values s ∧ (∃ p ∈ values, p.completed ≠ none) ∧ Task.Quiet values := by
  have hvalid : (Task.new : Task DefaultLeaderFunction Vote).Admissible ctx
      (.networkMessage decidedCommit) := Or.inl (by decide +kernel)
  have hrun : Task.SettledRun ctx [] ⟨some (.uninitialized [decidedCommit]), 0, [], []⟩ :=
    Task.SettledRun.new.step hvalid (Task.settles_of_input (by simp)) rfl
  obtain ⟨⟨values, s⟩, hr, hdone⟩ :
      ∃ r ∈ (⟨some (.uninitialized [decidedCommit]), 0, [], []⟩ :
          Task DefaultLeaderFunction Vote).step (.initialization firstInit),
        ∃ p ∈ r.1, p.completed ≠ none := by
    decide +kernel
  have hsettles : Task.Settles ⟨some (.uninitialized [decidedCommit]), 0, [], []⟩
      (.initialization firstInit) := by
    intro init buffer hinit hs
    cases hinit
    cases hs
    exact ⟨fun hne => absurd (Qbft.completed_new _ _ _ _) hne, trivial⟩
  have hinput : Task.Admissible ctx ⟨some (.uninitialized [decidedCommit]), 0, [], []⟩
      (.initialization firstInit) := trivial
  have hrun' := hrun.step hinput hsettles hr
  exact ⟨_, s, hrun', hdone, (Task.quiet_of_settles lawful_vote).1 _ s hrun'⟩

/-- The decided message and then a proposal for the second round are waiting when the
task is initialized: operator 1 decides and then prepares in the second round. -/
theorem reopened_lateProposal :
    ∃ (values : List (Qbft DefaultLeaderFunction Vote)) (s : Task DefaultLeaderFunction Vote),
      Task.Run ctx values s ∧ ¬ Task.Quiet values ∧
        ∃ q₀ q₁ q₂, values = [q₀, q₁, q₂] ∧
          q₁.completed = some (.success (QbftData.hash (⟨1⟩ : Vote))) ∧ q₁.state = .complete ∧
          q₂.state = .prepare (QbftData.hash (⟨8⟩ : Vote)) ∧
          q₂.sent.length = q₁.sent.length + 1 := by
  have hvalid : (Task.new : Task DefaultLeaderFunction Vote).Admissible ctx
      (.networkMessage decidedCommit) := Or.inl (by decide +kernel)
  have hvalid' : (⟨some (.uninitialized [decidedCommit]), 0, [], []⟩ :
      Task DefaultLeaderFunction Vote).Admissible ctx (.networkMessage lateProposal) :=
    Or.inl (by decide +kernel)
  have hrun : Task.Run ctx [] ⟨some (.uninitialized [decidedCommit, lateProposal]), 0, [], []⟩ :=
    (Task.Run.new.step hvalid rfl).step hvalid' rfl
  obtain ⟨⟨values, s⟩, hr, hlength, hdone, hcomplete, hprepare, hsent⟩ :
      ∃ r ∈ (⟨some (.uninitialized [decidedCommit, lateProposal]), 0, [], []⟩ :
          Task DefaultLeaderFunction Vote).step (.initialization firstInit),
        r.1.length = 3 ∧
          (r.1.map Qbft.completed)[1]? = some (some (.success (QbftData.hash (⟨1⟩ : Vote)))) ∧
          (r.1.map Qbft.state)[1]? = some .complete ∧
          (r.1.map Qbft.state)[2]? = some (.prepare (QbftData.hash (⟨8⟩ : Vote))) ∧
          (r.1.map fun q => q.sent.length)[2]? =
            (r.1.map fun q => q.sent.length + 1)[1]? := by
    decide +kernel
  have hinput : Task.Admissible ctx
      ⟨some (.uninitialized [decidedCommit, lateProposal]), 0, [], []⟩
      (.initialization firstInit) := trivial
  have hrun' := hrun.step hinput hr
  obtain ⟨q₀, q₁, q₂, rfl⟩ := List.length_eq_three.mp hlength
  simp only [List.map_cons, List.map_nil, List.getElem?_cons_succ, List.getElem?_cons_zero,
    Option.some.injEq] at hdone hcomplete hprepare hsent
  refine ⟨_, s, hrun', fun hquiet => ?_, q₀, q₁, q₂, rfl, hdone, hcomplete, hprepare, hsent⟩
  have hafter := (List.pairwise_cons.mp (List.pairwise_cons.mp hquiet.after).2).1 q₂ (by simp)
    (by rw [hdone]; simp)
  rw [hprepare] at hafter
  cases hafter.1

end Sample

end Anchor
