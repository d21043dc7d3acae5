import Mathlib
import Anchor.Library.Machine
import Anchor.Library.NatRange

/-!
# Fetching logs

A range of blocks is requested at once.  If the answer may be too large, the range is split
in half and both halves are requested, the lower one first; the ranges that are still to be
requested are kept on a stack.  Block numbers are machine words.
-/

namespace Anchor

inductive TransportErrorKind where
  | httpError
  | other
deriving DecidableEq

inductive RpcError where
  | errorResp (text : String)
  | transport (kind : TransportErrorKind) (text : String)
  | other (text : String)
deriving DecidableEq

/-- The only error is that of a request. -/
inductive LogFetchError where
  | rpcError (text : String)
deriving DecidableEq

namespace RpcError

def text : RpcError → String
  | errorResp text | transport _ text | other text => text

def mayBeSizeLimit : RpcError → Bool
  | transport .httpError _ | errorResp _ => true
  | _ => false

end RpcError

abbrev BlockRange := NatRange

namespace BlockRange

def mid (r : BlockRange) : ℕ :=
  (r.first + ((r.last - r.first + 1) % 2 ^ 64 + 1) / 2 + (2 ^ 64 - 1)) % 2 ^ 64

def lower (r : BlockRange) : BlockRange := ⟨r.first, r.mid⟩

def upper (r : BlockRange) : BlockRange := ⟨(r.mid + 1) % 2 ^ 64, r.last⟩

end BlockRange

structure LogRequest (Log : Type) where
  range : BlockRange
  answer : Except RpcError (List Log)

/-- The loop with the requests made so far.  The top of the stack comes first. -/
structure LogFetch (Log : Type) where
  logs : List Log
  pending : List BlockRange
  failed : Option LogFetchError
  requests : List (LogRequest Log)

namespace LogFetch

variable {Log : Type}

def start (range : BlockRange) : LogFetch Log := ⟨[], [range], none, []⟩

def result (f : LogFetch Log) : Option (Except LogFetchError (List Log)) :=
  match f.failed, f.pending with
  | some e, _ => some (.error e)
  | none, [] => some (.ok f.logs)
  | none, _ :: _ => none

/-- The server answers the next request.  A fetch that has its result makes no request. -/
def step (f : LogFetch Log) (answer : Except RpcError (List Log)) : LogFetch Log :=
  match f.failed, f.pending with
  | none, range :: pending =>
    let requests := f.requests ++ [⟨range, answer⟩]
    match answer with
    | .ok fetched => { f with logs := f.logs ++ fetched, pending, requests }
    | .error e =>
      if range.first ≠ range.last ∧ e.mayBeSizeLimit then
        { f with pending := range.lower :: range.upper :: pending, requests }
      else
        { f with
          pending, requests
          failed := some (.rpcError ("Error fetching logs: " ++ e.text)) }
  | _, _ => f

def fetchLogs (range : BlockRange) (answers : List (Except RpcError (List Log))) : LogFetch Log :=
  Machine.run step (start range) answers

def fetched (f : LogFetch Log) : List (BlockRange × List Log) :=
  f.requests.filterMap fun request => request.answer.toOption.map (request.range, ·)

theorem step_cases (f : LogFetch Log) (answer : Except RpcError (List Log)) :
    f.step answer = f ∧ f.result.isSome ∨
      f.failed = none ∧ ∃ range pending, f.pending = range :: pending ∧
        ((∃ fetched, answer = .ok fetched ∧
            f.step answer = ⟨f.logs ++ fetched, pending, none,
              f.requests ++ [⟨range, .ok fetched⟩]⟩) ∨
          (∃ e, answer = .error e ∧ range.first ≠ range.last ∧
            f.step answer = ⟨f.logs, BlockRange.lower range :: BlockRange.upper range :: pending,
              none, f.requests ++ [⟨range, .error e⟩]⟩) ∨
          ∃ e e', answer = .error e ∧
            f.step answer = ⟨f.logs, pending, some e', f.requests ++ [⟨range, .error e⟩]⟩) := by
  obtain ⟨logs, pending, failed, requests⟩ := f
  cases failed with
  | some e => exact Or.inl ⟨rfl, rfl⟩
  | none =>
    cases pending with
    | nil => exact Or.inl ⟨rfl, rfl⟩
    | cons range pending =>
      refine Or.inr ⟨rfl, range, pending, rfl, ?_⟩
      cases answer with
      | ok fetched => exact Or.inl ⟨fetched, rfl, rfl⟩
      | error e =>
        by_cases hsplit : range.first ≠ range.last ∧ e.mayBeSizeLimit = true
        · refine Or.inr (Or.inl ⟨e, rfl, hsplit.1, ?_⟩)
          simp only [step, if_pos hsplit]
        · refine Or.inr (Or.inr ⟨e, .rpcError ("Error fetching logs: " ++ e.text), rfl, ?_⟩)
          simp only [step, if_neg hsplit]

/-! ## One block after the other -/

/-- What is kept while a range is fetched: the ranges fetched and the pending ones follow each
other, and every request leaves less to be requested. -/
structure Sound (range : BlockRange) (f : LogFetch Log) : Prop where
  logs : f.logs = f.fetched.flatMap Prod.snd
  covers : f.failed = none →
    NatRange.Covers range.first (f.fetched.map Prod.fst ++ f.pending) (range.last + 1)
  bound : f.requests.length + (f.pending.map NatRange.weight).sum ≤ range.weight

theorem exists_cut {r : BlockRange} (hlt : r.first < r.last)
    (hcount : r.last - r.first + 1 < 2 ^ 64) (hword : r.last < 2 ^ 64) :
    ∃ m, r.first ≤ m ∧ m < r.last ∧ BlockRange.lower r = ⟨r.first, m⟩ ∧
      BlockRange.upper r = ⟨m + 1, r.last⟩ := by
  have hmid : BlockRange.mid r = r.first + (r.last - r.first) / 2 := by
    unfold BlockRange.mid
    omega
  refine ⟨r.first + (r.last - r.first) / 2, by omega, by omega, ?_, ?_⟩
  · rw [BlockRange.lower, hmid]
  · rw [BlockRange.upper, hmid, Nat.mod_eq_of_lt (by omega)]

variable {range : BlockRange} {f : LogFetch Log}

theorem sound_start (range : BlockRange) (hle : range.first ≤ range.last) :
    (start range : LogFetch Log).Sound range :=
  ⟨rfl, fun _ => ⟨rfl, hle, rfl⟩, by simp [start]⟩

theorem Sound.step (h : f.Sound range) (hcount : range.last - range.first + 1 < 2 ^ 64)
    (hword : range.last < 2 ^ 64) (answer : Except RpcError (List Log)) :
    (f.step answer).Sound range := by
  obtain ⟨heq, -⟩ | ⟨hfailed, r, pending, hpending, hcases⟩ := f.step_cases answer
  · rwa [heq]
  have hcovers := h.covers hfailed
  have hbound := h.bound
  rw [hpending] at hcovers hbound
  rw [List.map_cons, List.sum_cons] at hbound
  have hweight : 1 ≤ r.weight := Nat.le_add_left 1 _
  obtain ⟨fetched, rfl, heq⟩ | ⟨e, rfl, hne, heq⟩ | ⟨e, e', rfl, heq⟩ := hcases
  · have hfetched : (f.step (.ok fetched)).fetched = f.fetched ++ [(r, fetched)] := by
      simp [heq, LogFetch.fetched, Except.toOption]
    refine ⟨?_, fun _ => ?_, ?_⟩
    · rw [hfetched, List.flatMap_append, ← h.logs, heq]
      simp
    · rw [hfetched, heq, List.map_append, List.append_assoc]
      exact hcovers
    · rw [heq]
      simp only [List.length_append, List.length_singleton]
      omega
  · have hfetched : (f.step (.error e)).fetched = f.fetched := by
      simp [heq, LogFetch.fetched, Except.toOption]
    obtain ⟨hfirst, hle, hlast⟩ := hcovers.bounds (List.mem_append_right _ List.mem_cons_self)
    obtain ⟨m, hlower, hupper, hl, hu⟩ :=
      exists_cut (lt_of_le_of_ne hle hne) (by omega) (by omega)
    rw [hl, hu] at heq
    refine ⟨?_, fun _ => ?_, ?_⟩
    · rw [hfetched, heq]
      exact h.logs
    · rw [hfetched, heq]
      obtain ⟨c, hdone, hrest⟩ := NatRange.covers_append.mp hcovers
      exact NatRange.covers_append.mpr ⟨c, hdone, (NatRange.covers_cut hlower hupper).mpr hrest⟩
    · have hsum := NatRange.weight_cut hlower hupper
      rw [heq]
      simp only [List.length_append, List.length_singleton, List.map_cons, List.sum_cons]
      omega
  · have hfetched : (f.step (.error e)).fetched = f.fetched := by
      simp [heq, LogFetch.fetched, Except.toOption]
    refine ⟨?_, fun hnone => ?_, ?_⟩
    · rw [hfetched, heq]
      exact h.logs
    · rw [heq] at hnone
      cases hnone
    · rw [heq]
      simp only [List.length_append, List.length_singleton]
      omega

theorem length_requests (range : BlockRange) (answers : List (Except RpcError (List Log)))
    (h : (fetchLogs range answers).result = none) :
    (fetchLogs range answers).requests.length = answers.length := by
  induction answers using List.reverseRecOn with
  | nil => rfl
  | append_singleton answers answer ih =>
    rw [fetchLogs, Machine.run_concat] at h ⊢
    obtain ⟨heq, hsome⟩ | ⟨hfailed, r, pending, hpending, hcases⟩ :=
      step_cases (Machine.run step (start range) answers) answer
    · rw [heq] at h
      rw [h] at hsome
      cases hsome
    have hbefore : (fetchLogs range answers).result = none := by
      unfold fetchLogs result
      rw [hfailed, hpending]
    have hlength := ih hbefore
    rw [fetchLogs] at hlength
    obtain ⟨_, -, heq⟩ | ⟨_, -, -, heq⟩ | ⟨_, _, -, heq⟩ := hcases <;> simp [heq, hlength]

/-- A range whose blocks a machine word can count is fetched with fewer requests than twice its
blocks, and what is fetched are its blocks, one after the other. -/
theorem fetchLogs_covers (range : BlockRange) (hle : range.first ≤ range.last)
    (hword : range.last < 2 ^ 64) (hcount : range.last - range.first + 1 < 2 ^ 64)
    (answers : List (Except RpcError (List Log))) :
    (fetchLogs range answers).requests.length ≤ 2 * (range.last - range.first + 1) - 1 ∧
    (2 * (range.last - range.first + 1) - 1 ≤ answers.length →
      (fetchLogs range answers).result.isSome) ∧
    ∀ logs, (fetchLogs range answers).result = some (.ok logs) →
      logs = (fetchLogs range answers).fetched.flatMap Prod.snd ∧
      (∀ p ∈ (fetchLogs range answers).fetched, p.1.first ≤ p.1.last) ∧
      (fetchLogs range answers).fetched.flatMap (fun p => p.1.elements) = range.elements := by
  have hsound : (fetchLogs range answers).Sound range :=
    Machine.invariant (P := fun _ _ => True) (sound_start range hle)
      (fun _ answer _ h => h.step hcount hword answer)
      (Machine.steps_of_forall (fun _ _ _ => trivial) _)
  have hbound := hsound.bound
  rw [NatRange.weight] at hbound
  refine ⟨by omega, fun hlength => ?_, fun logs hresult => ?_⟩
  · by_contra hnone
    rw [Option.not_isSome_iff_eq_none] at hnone
    have hrequests := length_requests range answers hnone
    cases hpending : (fetchLogs range answers).pending with
    | nil =>
      unfold result at hnone
      rw [hpending] at hnone
      cases hfailed : (fetchLogs range answers).failed <;> simp [hfailed] at hnone
    | cons r pending =>
      rw [hpending, List.map_cons, List.sum_cons, NatRange.weight] at hbound
      omega
  · unfold result at hresult
    split at hresult
    · cases hresult
    · rename_i hfailed hpending
      cases hresult
      have hcovers := hsound.covers hfailed
      rw [hpending, List.append_nil] at hcovers
      refine ⟨hsound.logs, fun p hp => (hcovers.bounds (List.mem_map_of_mem hp)).2.1, ?_⟩
      rw [← List.flatMap_map, hcovers.flatMap_elements]
      rfl
    · cases hresult

end LogFetch

namespace Sample

/-- Three blocks, fetched in two halves. -/
theorem fetchLogs_covers_three :
    (LogFetch.fetchLogs ⟨5, 7⟩ [.error (.errorResp "too large"), .ok [1], .ok [2, 3]]).result =
        some (.ok [1, 2, 3]) ∧
      (LogFetch.fetchLogs ⟨5, 7⟩
        [.error (.errorResp "too large"), .ok [1], .ok [2, 3]]).fetched.flatMap
          (fun p => p.1.elements) = [5, 6, 7] :=
  ⟨rfl, ((LogFetch.fetchLogs_covers ⟨5, 7⟩ (by decide) (by decide) (by decide) _).2.2 _ rfl).2.2⟩

def allBlocks : BlockRange := ⟨0, 2 ^ 64 - 1⟩

/-- The count of these blocks wraps to zero, both halves are the whole range, and the same request
is made again and again. -/
theorem fetchLogs_never_ends :
    ¬ ∃ n, (LogFetch.fetchLogs allBlocks (List.replicate n
      (.error (.errorResp "too large") : Except RpcError (List ℕ)))).result.isSome := by
  rintro ⟨n, hn⟩
  have hne : allBlocks.first ≠ allBlocks.last := by decide
  have hlower : allBlocks.lower = allBlocks := by
    norm_num [BlockRange.lower, BlockRange.mid, allBlocks]
  have hupper : allBlocks.upper = allBlocks := by
    norm_num [BlockRange.upper, BlockRange.mid, allBlocks]
  suffices h : ∀ (f : LogFetch ℕ) (pending : List BlockRange), f.failed = none →
      f.pending = allBlocks :: pending →
      (Machine.run LogFetch.step f
        (List.replicate n (.error (.errorResp "too large")))).result = none by
    rw [LogFetch.fetchLogs, h _ [] rfl rfl] at hn
    cases hn
  clear hn
  induction n with
  | zero =>
    intro f pending hfailed hpending
    simp only [List.replicate_zero, Machine.run_nil, LogFetch.result, hfailed, hpending]
  | succ n ih =>
    intro f pending hfailed hpending
    rw [List.replicate_succ, Machine.run_cons]
    refine ih _ (allBlocks :: pending) ?_ ?_ <;>
      simp [LogFetch.step, hfailed, hpending, hne, hlower, hupper, RpcError.mayBeSizeLimit]

end Sample

end Anchor
