import Mathlib
import Anchor.Qbft.Decision
import Anchor.Qbft.Simulation

/-!
# The task around an instance

`qbft_instance` runs as a task of its own.  It buffers messages until it is
initialized, hands messages and round ends to the instance, and passes the result
on to everybody who asked for it, before or after it was known.  Its clock and its
channels appear as the inputs it is given in any order.
-/

namespace Anchor

open Ssz

namespace QbftManager

inductive QbftInstance (F D : Type) where
  | uninitialized (messageBuffer : List WrappedQbftMessage)
  | initialized (qbft : Qbft F D) (onCompleted : List ℕ)
  | decided (value : Completed D)

structure QbftInitialization (F D : Type) where
  config : Config F
  initial : D
  validator : D → D → Bool
  messageId : MessageId

inductive RecvResult (F D : Type) where
  | initialization (init : QbftInitialization F D)
  /-- A message from the network, or one of its own that was signed. -/
  | networkMessage (message : WrappedQbftMessage)
  | roundEnd
  | closed

/-- The task with what it has sent.  Listeners are numbered in the order in which
they register. -/
structure Task (F D : Type) where
  /-- `none` once the loop was left. -/
  state : Option (QbftInstance F D)
  registered : ℕ
  /-- The results sent to the listeners. -/
  results : List (ℕ × Completed D)
  /-- The aggregated commits sent to the network. -/
  sentCommits : List SignedSSVMessage

def messageBufferLimit : ℕ := 100

namespace Task

variable {F D : Type}

def new : Task F D := ⟨some (.uninitialized []), 0, [], []⟩

def resultsOf (s : Task F D) (listener : ℕ) : List (Completed D) :=
  (s.results.filter fun r => r.1 = listener).map Prod.snd

variable [LeaderFunction F] [QbftData D]

/-- Receive a message; `none` is a panic. -/
def receive (q : Qbft F D) (message : WrappedQbftMessage) : Option (Qbft F D) :=
  match q.receive message with
  | (_, .error .panicked) => none
  | (q, _) => some q

/-- Receive the buffered messages.  The result is the list of all instance values
on the way and the last one. -/
def replay : Qbft F D → List WrappedQbftMessage → Option (List (Qbft F D) × Qbft F D)
  | q, [] => some ([q], q)
  | q, message :: buffer =>
    match receive q message with
    | none => none
    | some q' =>
      match replay q' buffer with
      | none => none
      | some (values, last) => some (q :: values, last)

def completeIfDone (s : Task F D) (q : Qbft F D) (onCompleted : List ℕ) : Task F D :=
  match q.completedData with
  | some completed =>
    { s with
      state := some (.decided completed)
      results := s.results ++ onCompleted.map fun listener => (listener, completed)
      sentCommits := s.sentCommits ++ q.aggregatedCommit.toList }
  | none => { s with state := some (.initialized q onCompleted) }

/-- One turn of the loop.  The result is the list of the instance values on the
way and the task after it; `none` is a panic. -/
def step (s : Task F D) : RecvResult F D → Option (List (Qbft F D) × Task F D)
  | .initialization init =>
    match s.state with
    | none => some ([], s)
    | some (.uninitialized messageBuffer) =>
      match replay (Qbft.new init.config init.initial init.validator init.messageId)
          messageBuffer with
      | none => none
      | some (values, q) =>
        some (values, { s with registered := s.registered + 1 }.completeIfDone q
          [s.registered])
    | some (.initialized q onCompleted) =>
      some ([], { s with registered := s.registered + 1 }.completeIfDone q
        (onCompleted ++ [s.registered]))
    | some (.decided value) =>
      some ([], { s with
        registered := s.registered + 1
        results := s.results ++ [(s.registered, value)] })
  | .networkMessage message =>
    match s.state with
    | some (.uninitialized messageBuffer) =>
      if messageBuffer.length < messageBufferLimit then
        some ([], { s with state := some (.uninitialized (messageBuffer ++ [message])) })
      else some ([], s)
    | some (.initialized q onCompleted) =>
      match receive q message with
      | none => none
      | some q => some ([q], s.completeIfDone q onCompleted)
    | _ => some ([], s)
  | .roundEnd =>
    match s.state with
    | some (.initialized q onCompleted) =>
      some ([q.endRound], s.completeIfDone q.endRound onCompleted)
    | _ => some ([], s)
  | .closed =>
    match s.state with
    | some (.initialized _ onCompleted) =>
      some ([], { s with
        state := none
        results := s.results ++ onCompleted.map fun listener => (listener, .timedOut) })
    | _ => some ([], { s with state := none })

/-- Messages passed the validator or are the instance's own. -/
def Admissible {K : Type} (ctx : ValidationContext K) (s : Task F D) : RecvResult F D → Prop
  | .networkMessage message => ctx.Validated message ∨
      ∃ q onCompleted, s.state = some (.initialized q onCompleted) ∧ q.Loopback message
  | _ => True

inductive Run {K : Type} (ctx : ValidationContext K) : List (Qbft F D) → Task F D → Prop where
  | new : Run ctx [] new
  | step {values values' : List (Qbft F D)} {s s' : Task F D} {input : RecvResult F D}
      (h : Run ctx values s) (hinput : s.Admissible ctx input)
      (hstep : s.step input = some (values', s')) : Run ctx (values ++ values') s'

/-! ## Invariants -/

def Lasting (values : List (Qbft F D)) : Prop :=
  values.Pairwise fun p q => ∀ v, p.completed = some (.success v) → q.completed = some (.success v)

/-- Every listener has been sent the value once, and it is what a success stands for. -/
structure Told (values : List (Qbft F D)) (s : Task F D) (value : Completed D) : Prop where
  results_eq : s.results = (List.range s.registered).map fun listener => (listener, value)
  value_eq : ∀ p ∈ values, ∀ v, p.completed = some (.success v) →
    ∃ d, value = .success d ∧ QbftData.hash d = v

def StateOk {K : Type} (ctx : ValidationContext K) (values : List (Qbft F D)) (s : Task F D) :
    Option (QbftInstance F D) → Prop
  | some (.uninitialized messageBuffer) =>
    values = [] ∧ s.registered = 0 ∧ s.results = [] ∧ ∀ w ∈ messageBuffer, ctx.Validated w
  | some (.initialized q onCompleted) =>
    q.Reachable ctx ∧ (∀ p ∈ values, ∀ v, p.completed ≠ some (.success v)) ∧
      onCompleted = List.range s.registered ∧ s.results = []
  | some (.decided value) => Told values s value
  | none => ∃ value, Told values s value

structure Ok {K : Type} (ctx : ValidationContext K) (values : List (Qbft F D)) (s : Task F D) :
    Prop where
  reachable : ∀ p ∈ values, p.Reachable ctx
  lasting : Lasting values
  state : StateOk ctx values s s.state

section Invariants

variable {K : Type} {ctx : ValidationContext K} {values : List (Qbft F D)} {s s' : Task F D}
  {q : Qbft F D}

variable {w : WrappedQbftMessage}

theorem receive_ne_panicked (hw : w.Sound) :
    (q.receive w).2 ≠ .error .panicked := by
  rw [Qbft.receive]
  split
  · simp
  · simp only [dif_pos hw.round_pos]
    rename_i content signer hvalidate
    cases (q.dispatch content signer (Round.ofU64 w.qbftMessage.round hw.round_pos) w).2 <;>
      simp [Except.mapError]

theorem receive_of_sound (hw : w.Sound) :
    receive q w = some (q.apply (.receive w)) := by
  have hne := receive_ne_panicked (q := q) hw
  rw [receive, Qbft.apply]
  split
  · rename_i q' heq
    rw [heq] at hne
    exact absurd rfl hne
  · rename_i q' r hr heq
    rw [heq]

theorem exists_replay {buffer : List WrappedQbftMessage} (hq : q.Reachable ctx)
    (hbuffer : ∀ w ∈ buffer, ctx.Validated w) :
    ∃ values last, replay q buffer = some (values, last) ∧ last ∈ values ∧
      (∀ p ∈ values, p.Reachable ctx) ∧ Lasting values ∧
      ∀ p ∈ values, ∀ v,
        (q.completed = some (.success v) → p.completed = some (.success v)) ∧
        (p.completed = some (.success v) → last.completed = some (.success v)) := by
  induction buffer generalizing q with
  | nil =>
    exact ⟨[q], q, rfl, by simp, by simpa using hq, List.pairwise_singleton _ _, by simp⟩
  | cons w buffer ih =>
    have hvalid := hbuffer w (by simp)
    have hadmissible : q.Admissible ctx (.receive w) := Or.inl hvalid
    have hmono : ∀ v, q.completed = some (.success v) →
        (q.apply (.receive w)).completed = some (.success v) :=
      fun v hv => (hadmissible.transition hq.grounded).success_mono hv
    obtain ⟨values, last, hreplay, hlast, hvalues, hlasting, hsuccess⟩ :=
      ih (hq.step hadmissible) fun w' hw' => hbuffer w' (List.mem_cons_of_mem _ hw')
    have hafter : ∀ p ∈ values, ∀ v, q.completed = some (.success v) →
        p.completed = some (.success v) :=
      fun p hp v hv => (hsuccess p hp v).1 (hmono v hv)
    refine ⟨q :: values, last, ?_, List.mem_cons_of_mem _ hlast, ?_,
      List.pairwise_cons.mpr ⟨hafter, hlasting⟩, ?_⟩
    · rw [replay, receive_of_sound hvalid.sound]
      simp only [hreplay]
    · intro p hp
      rcases List.mem_cons.mp hp with rfl | hp
      · exact hq
      · exact hvalues p hp
    · intro p hp v
      rcases List.mem_cons.mp hp with rfl | hp
      · exact ⟨id, hafter last hlast v⟩
      · exact ⟨hafter p hp v, (hsuccess p hp v).2⟩

theorem completedData_eq_none (hq : q.Reachable ctx) (h : q.completedData = none) :
    q.completed = none := by
  unfold Qbft.completedData at h
  split at h
  · assumption
  · cases h
  · rename_i v hv
    rw [Option.map_eq_none_iff] at h
    have hdata := hq.decisionOk.data v hv
    rw [h] at hdata
    cases hdata

theorem exists_of_success (hlaw : QbftData.Lawful D ctx.crypto.hashData) (hq : q.Reachable ctx)
    {v : Hash256} (hv : q.completed = some (.success v)) {value : Completed D}
    (h : q.completedData = some value) : ∃ d, value = .success d ∧ QbftData.hash d = v := by
  simp only [Qbft.completedData, hv] at h
  obtain ⟨d, hd, rfl⟩ := Option.map_eq_some_iff.mp h
  exact ⟨d, rfl, (hq.hashedData hlaw).hash_data hd⟩

theorem Ok.completeIfDone (hlaw : QbftData.Lawful D ctx.crypto.hashData) (hq : q.Reachable ctx)
    (hreachable : ∀ p ∈ values, p.Reachable ctx) (hlasting : Lasting values)
    (hlast : ∀ p ∈ values, ∀ v, p.completed = some (.success v) → q.completed = some (.success v))
    (hresults : s.results = []) :
    Ok ctx values (s.completeIfDone q (List.range s.registered)) := by
  refine ⟨hreachable, hlasting, ?_⟩
  unfold Task.completeIfDone
  split
  · rename_i value hvalue
    refine ⟨by rw [hresults, List.nil_append], fun p hp v hv => ?_⟩
    exact exists_of_success hlaw hq (hlast p hp v hv) hvalue
  · rename_i hnone
    have hdone := completedData_eq_none hq hnone
    refine ⟨hq, fun p hp v hv => ?_, rfl, hresults⟩
    rw [hlast p hp v hv] at hdone
    cases hdone

theorem Ok.snoc (hlaw : QbftData.Lawful D ctx.crypto.hashData) (h : Ok ctx values s)
    {onCompleted : List ℕ} (hstate : s.state = some (.initialized q onCompleted)) {q' : Qbft F D}
    (hq' : q'.Reachable ctx) :
    Ok ctx (values ++ [q']) (s.completeIfDone q' onCompleted) := by
  obtain ⟨hreachable, hlasting, hs⟩ := h
  rw [hstate] at hs
  obtain ⟨-, hnone, rfl, hresults⟩ := hs
  refine Ok.completeIfDone hlaw hq' ?_ ?_ ?_ hresults
  · intro p hp
    rcases List.mem_append.mp hp with hp | hp
    · exact hreachable p hp
    · rw [List.mem_singleton.mp hp]
      exact hq'
  · refine List.pairwise_append.mpr ⟨hlasting, List.pairwise_singleton _ _, fun p hp _ _ v hv => ?_⟩
    exact absurd hv (hnone p hp v)
  · intro p hp v hv
    rcases List.mem_append.mp hp with hp | hp
    · exact absurd hv (hnone p hp v)
    · rwa [List.mem_singleton.mp hp] at hv

theorem Ok.idle (h : Ok ctx values s) {input : RecvResult F D}
    (hstep : s.step input = some ([], s)) :
    ∃ values' s', s.step input = some (values', s') ∧ Ok ctx (values ++ values') s' :=
  ⟨[], s, hstep, by rwa [List.append_nil]⟩

section

variable (hlaw : QbftData.Lawful D ctx.crypto.hashData)
include hlaw

theorem Ok.initialization (h : Ok ctx values s)
    (init : QbftInitialization F D) :
    ∃ values' s', s.step (.initialization init) = some (values', s') ∧
      Ok ctx (values ++ values') s' := by
  obtain ⟨state, registered, results, sentCommits⟩ := s
  rcases state with _ | (buffer | ⟨q, onCompleted⟩ | value)
  · exact h.idle rfl
  · obtain ⟨rfl, rfl, rfl, hbuffer⟩ := h.state
    obtain ⟨values', q, hreplay, hmem, hvalues', hlasting, hsuccess⟩ := exists_replay
      (Qbft.Reachable.new init.config init.initial init.validator init.messageId) hbuffer
    refine ⟨values', _, by simp only [Task.step, hreplay]; rfl, ?_⟩
    exact Ok.completeIfDone hlaw (hvalues' q hmem) hvalues' hlasting
      (fun p hp v => (hsuccess p hp v).2) rfl
  · obtain ⟨hq, hnone, hlisteners, hresults⟩ := h.state
    refine ⟨[], _, rfl, ?_⟩
    rw [List.append_nil, hlisteners, ← List.range_succ]
    exact Ok.completeIfDone hlaw hq h.reachable h.lasting
      (fun p hp v hv => absurd hv (hnone p hp v)) hresults
  · have hresults : results = (List.range registered).map fun listener => (listener, value) :=
      h.state.results_eq
    refine ⟨[], _, rfl, ?_⟩
    rw [List.append_nil]
    refine ⟨h.reachable, h.lasting, ?_, h.state.value_eq⟩
    rw [hresults, List.range_succ, List.map_append, List.map_singleton]

theorem Ok.networkMessage (h : Ok ctx values s)
    (hinput : s.Admissible ctx (.networkMessage w)) :
    ∃ values' s', s.step (.networkMessage w) = some (values', s') ∧
      Ok ctx (values ++ values') s' := by
  obtain ⟨state, registered, results, sentCommits⟩ := s
  rcases state with _ | (buffer | ⟨q, onCompleted⟩ | value)
  · exact h.idle rfl
  · by_cases hlimit : buffer.length < messageBufferLimit
    swap
    · exact h.idle (by simp only [Task.step, if_neg hlimit])
    obtain ⟨hvalues, hregistered, hresults, hbuffer⟩ := h.state
    refine ⟨[], ⟨some (.uninitialized (buffer ++ [w])), registered, results, sentCommits⟩,
      by simp only [Task.step, if_pos hlimit], ?_⟩
    rw [List.append_nil]
    refine ⟨h.reachable, h.lasting, hvalues, hregistered, hresults, fun w' hw' => ?_⟩
    rcases List.mem_append.mp hw' with hw' | hw'
    · exact hbuffer w' hw'
    · rw [List.mem_singleton.mp hw']
      rcases hinput with hvalid | ⟨q, onCompleted, hstate, -⟩
      · exact hvalid
      · cases hstate
  · obtain ⟨hq, -⟩ := h.state
    have hadmissible : q.Admissible ctx (.receive w) := by
      rcases hinput with hvalid | ⟨q', onCompleted', hstate, hloop⟩
      · exact Or.inl hvalid
      · cases hstate
        exact Or.inr hloop
    have hreceive := receive_of_sound (q := q) (hadmissible.sound hq.grounded)
    refine ⟨[q.apply (.receive w)], _, by simp only [Task.step, hreceive]; rfl, ?_⟩
    exact h.snoc hlaw rfl (hq.step hadmissible)
  · exact h.idle rfl

theorem Ok.step (h : Ok ctx values s)
    {input : RecvResult F D} (hinput : s.Admissible ctx input) :
    ∃ values' s', s.step input = some (values', s') ∧ Ok ctx (values ++ values') s' := by
  cases input with
  | initialization init => exact h.initialization hlaw init
  | networkMessage w => exact h.networkMessage hlaw hinput
  | roundEnd =>
    obtain ⟨state, registered, results, sentCommits⟩ := s
    rcases state with _ | (buffer | ⟨q, onCompleted⟩ | value)
    · exact h.idle rfl
    · exact h.idle rfl
    · obtain ⟨hq, -⟩ := h.state
      have hend : q.Admissible ctx .endRound := trivial
      exact ⟨[q.endRound], _, rfl, h.snoc hlaw rfl (hq.step hend)⟩
    · exact h.idle rfl
  | closed =>
    obtain ⟨state, registered, results, sentCommits⟩ := s
    rcases state with _ | (buffer | ⟨q, onCompleted⟩ | value)
    · exact h.idle rfl
    · obtain ⟨rfl, rfl, rfl, -⟩ := h.state
      exact ⟨[], _, rfl, h.reachable, h.lasting, .timedOut, rfl, by simp⟩
    · obtain ⟨-, hnone, hlisteners, hresults⟩ := h.state
      refine ⟨[], _, rfl, ?_⟩
      rw [List.append_nil]
      refine ⟨h.reachable, h.lasting, .timedOut, ?_, fun p hp v hv => absurd hv (hnone p hp v)⟩
      rw [hlisteners, hresults, List.nil_append]
    · refine ⟨[], _, rfl, ?_⟩
      rw [List.append_nil]
      exact ⟨h.reachable, h.lasting, value, h.state.results_eq, h.state.value_eq⟩

theorem Run.ok (h : Run ctx values s) :
    Ok ctx values s := by
  induction h with
  | new => exact ⟨by simp, List.Pairwise.nil, rfl, rfl, rfl, by simp⟩
  | step hrun hinput hstep ih =>
    obtain ⟨values', s', heq, hok⟩ := ih.step hlaw hinput
    rw [heq] at hstep
    cases hstep
    exact hok

end

omit [LeaderFunction F] in
theorem Told.resultsOf {value : Completed D} (h : Told values s value) {listener : ℕ}
    (hl : listener < s.registered) : s.resultsOf listener = [value] := by
  have hfilter :
      ((List.range s.registered).filter fun i => decide (i = listener)) = [listener] := by
    rw [List.filter_eq, List.count_range, if_pos hl]
    rfl
  rw [Task.resultsOf, h.results_eq, List.filter_map, List.map_map]
  rw [show ((fun r : ℕ × Completed D => decide (r.1 = listener)) ∘ fun i => (i, value)) =
    fun i => decide (i = listener) from rfl, hfilter]
  rfl

/-- Along every run of the task a success lasts, rests on valid data under its hash
and on a commit of a quorum, and is what every listener is sent, once.  Whatever the
result is, all listeners are sent the same one; and the task never panics. -/
theorem decision_integrity (hlaw : QbftData.Lawful D ctx.crypto.hashData)
    (h : Run ctx values s) :
    (∀ before q after v, values = before ++ q :: after → q.completed = some (.success v) →
      (∀ q' ∈ after, q'.completed = some (.success v)) ∧
      (∃ d, q.data v = some d ∧ QbftData.hash d = v ∧
        (d = q.startData ∨ q.dataValidator d q.startData = true)) ∧
      (∃ a, q.aggregatedCommit = some a ∧ q.config.QuorumCommit v a) ∧
      ∃ d, QbftData.hash d = v ∧ (s.state = some (.decided (.success d)) ∨ s.state = none) ∧
        ∀ listener < s.registered, s.resultsOf listener = [.success d]) ∧
    (∀ value, s.state = some (.decided value) →
      ∀ listener < s.registered, s.resultsOf listener = [value]) ∧
    (s.state = none → ∃ value, ∀ listener < s.registered, s.resultsOf listener = [value]) ∧
    ∀ input, s.Admissible ctx input → (s.step input).isSome = true := by
  have hok := h.ok hlaw
  refine ⟨?_, ?_, ?_, ?_⟩
  · rintro before q after v rfl hv
    have hq := hok.reachable q (by simp)
    obtain ⟨d, hd⟩ := Option.isSome_iff_exists.mp (hq.decisionOk.data v hv)
    refine ⟨?_, ⟨d, hd, (hq.hashedData hlaw).hash_data hd, hq.grounded.data_valid hd⟩,
      hq.decisionOk.commit v hv, ?_⟩
    · intro q' hq'
      have hpair := (List.pairwise_append.mp hok.lasting).2.1
      exact (List.pairwise_cons.mp hpair).1 q' hq' v hv
    · have htold : ∃ value, Told (before ++ q :: after) s value ∧
          (s.state = some (.decided value) ∨ s.state = none) := by
        have hstate := hok.state
        cases hs : s.state with
        | none =>
          rw [hs] at hstate
          obtain ⟨value, hvalue⟩ := hstate
          exact ⟨value, hvalue, Or.inr rfl⟩
        | some instance_ =>
          rw [hs] at hstate
          cases instance_ with
          | uninitialized buffer => exact absurd hstate.1 (by simp)
          | initialized p onCompleted => exact absurd hv (hstate.2.1 q (by simp) v)
          | decided value => exact ⟨value, hstate, Or.inl rfl⟩
      obtain ⟨value, hvalue, hs⟩ := htold
      obtain ⟨d', rfl, hhash⟩ := hvalue.value_eq q (by simp) v hv
      exact ⟨d', hhash, hs, fun listener hl => hvalue.resultsOf hl⟩
  · intro value hs listener hl
    have hstate := hok.state
    rw [hs] at hstate
    exact Told.resultsOf hstate hl
  · intro hs
    have hstate := hok.state
    rw [hs] at hstate
    obtain ⟨value, hvalue⟩ := hstate
    exact ⟨value, fun listener hl => hvalue.resultsOf hl⟩
  · intro input hinput
    obtain ⟨values', s', hstep, -⟩ := hok.step hlaw hinput
    rw [hstep]
    rfl

end Invariants

end Task

end QbftManager

namespace Sample

open QbftManager

def decidedCommit : WrappedQbftMessage :=
  ⟨⟨⟨[⟨2⟩, ⟨3⟩, ⟨4⟩].map fun i => sign i (SSVMessage.consensus identifier
      (message .commit 1 (QbftData.hash (⟨1⟩ : Vote)))).asSszBytes, by simp⟩,
    ⟨[⟨2⟩, ⟨3⟩, ⟨4⟩], by simp⟩,
    SSVMessage.consensus identifier (message .commit 1 (QbftData.hash (⟨1⟩ : Vote))),
    ⟨encodeU64 1, by decide⟩⟩, message .commit 1 (QbftData.hash (⟨1⟩ : Vote))⟩

def firstInit : QbftInitialization DefaultLeaderFunction Vote :=
  ⟨config ⟨1⟩ first_mem, ⟨1⟩, fun _ _ => true, identifier⟩

/-- The task of operator 1 gets the decided message first, and is then asked for
the result twice. -/
theorem decision_integrity_decidedCommit :
    ∃ (values : List (Qbft DefaultLeaderFunction Vote)) (s : Task DefaultLeaderFunction Vote),
      Task.Run ctx values s ∧ s.registered = 2 ∧
        ∃ d : Vote, QbftData.hash d = QbftData.hash (⟨1⟩ : Vote) ∧
          ∀ listener < 2, s.resultsOf listener = [.success d] := by
  have hvalid : (Task.new : Task DefaultLeaderFunction Vote).Admissible ctx
      (.networkMessage decidedCommit) := Or.inl (by decide +kernel)
  have hrun : Task.Run ctx [] ⟨some (.uninitialized [decidedCommit]), 0, [], []⟩ :=
    Task.Run.new.step hvalid rfl
  obtain ⟨⟨values, s⟩, hr, ⟨values', s'⟩, hr', hvalues, hvalues', hregistered⟩ :
      ∃ r ∈ (⟨some (.uninitialized [decidedCommit]), 0, [], []⟩ :
          Task DefaultLeaderFunction Vote).step (.initialization firstInit),
        ∃ r' ∈ r.2.step (.initialization firstInit),
          r.1.map Qbft.completed = [none, some (.success (QbftData.hash (⟨1⟩ : Vote)))] ∧
            r'.1.length = 0 ∧ r'.2.registered = 2 := by
    decide +kernel
  rw [List.length_eq_zero_iff] at hvalues'
  subst hvalues'
  obtain ⟨q₀, q₁, rfl, hq₁⟩ : ∃ q₀ q₁, values = [q₀, q₁] ∧
      q₁.completed = some (.success (QbftData.hash (⟨1⟩ : Vote))) := by
    rcases values with _ | ⟨q₀, _ | ⟨q₁, _ | ⟨q₂, values⟩⟩⟩ <;> simp at hvalues
    exact ⟨q₀, q₁, rfl, hvalues.2⟩
  have hinit : ∀ s : Task DefaultLeaderFunction Vote,
      s.Admissible ctx (.initialization firstInit) := fun _ => trivial
  have hrun' : Task.Run ctx [q₀, q₁] s' := (hrun.step (hinit _) hr).step (hinit _) hr'
  obtain ⟨d, hd, -, hresults⟩ := ((Task.decision_integrity lawful_vote hrun').1 [q₀] q₁ [] _ rfl
    hq₁).2.2.2
  exact ⟨_, s', hrun', hregistered, d, hd, fun listener hl => hresults listener (hregistered ▸ hl)⟩

end Sample

end Anchor
