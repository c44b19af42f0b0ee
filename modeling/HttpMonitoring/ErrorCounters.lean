import HttpMonitoring.Zone
import HttpMonitoring.Accounting

/-!
# Errors and what they are errors of

Five kinds of records count errors beside the requests they belong to. Requests
are accounted one at a time from a zeroed zone, each under the configuration of
its worker.
-/

namespace HttpMonitoring.ErrorCounters

open TopTable Accounting Zone

variable {w : Nat}

structure TopBounded (n : Nat) (e : TopEntry w) : Prop where
  hits : e.hits.toNat ≤ n
  errors : e.errors.toNat ≤ e.hits.toNat

structure UpstreamBounded (n : Nat) (u : UpstreamEntry w) : Prop where
  requests : u.requests.toNat ≤ n
  failures : u.failures.toNat ≤ u.requests.toNat
  statuses : u.status4xx.toNat + u.status5xx.toNat ≤ u.requests.toNat
  status5xx : u.status5xx.toNat ≤ u.failures.toNat

theorem toNat_add_ite {x : BitVec w} {p : Prop} [Decidable p] (h : x.toNat + 1 < 2 ^ w) :
    (x + if p then 1 else 0).toNat = x.toNat + if p then 1 else 0 := by
  have hWord : 1 < 2 ^ w := by omega
  split
  · have hOne : (1 : BitVec w).toNat = 1 := Nat.mod_eq_of_lt hWord
    rw [BitVec.toNat_add, hOne, Nat.mod_eq_of_lt h]
  · rw [add_zero, Nat.add_zero]

theorem toNat_add_one {x : BitVec w} (h : x.toNat + 1 < 2 ^ w) : (x + 1).toNat = x.toNat + 1 :=
  toNat_add_ite (p := True) h

section Top

variable {n : Nat} {e : TopEntry w}

theorem TopBounded.mono (h : TopBounded n e) {n' : Nat} (hn : n ≤ n') : TopBounded n' e :=
  ⟨h.hits.trans hn, h.errors⟩

/-- A record with the counters of a bounded one and those of one call. -/
theorem TopBounded.count (h : TopBounded n e) (hRoom : n + 1 < 2 ^ w) {c : TopCall w} {e' : TopEntry w}
    (hCount : counters e' = counters e + callTotals c) : TopBounded (n + 1) e' := by
  have hHits : e'.hits = e.hits + 1 := congrArg Prod.fst hCount
  have hErrors : e'.errors = e.errors + if c.isError then 1 else 0 :=
    congrArg (fun totals => totals.2.2.2) hCount
  have hOld := h.hits
  have hOldErrors := h.errors
  constructor
  · rw [hHits, toNat_add_one (by omega)]
    omega
  · rw [hHits, hErrors, toNat_add_one (by omega), toNat_add_ite (by omega)]
    split <;> omega

theorem topBounded_zeroed (n : Nat) : TopBounded n (zeroedEntry : TopEntry w) :=
  ⟨Nat.zero_le _, Nat.zero_le _⟩

variable {entries : Nat → TopEntry w}

theorem TopBounded.updateTop (h : ∀ i, TopBounded n (entries i)) (hRoom : n + 1 < 2 ^ w)
    (crc32 : Bytes → BitVec 32) (shpool : Bool) (capacity : Nat) (c : TopCall w) (i : Nat) :
    TopBounded (n + 1) (TopTable.updateTop crc32 shpool entries capacity c i) := by
  have hKept : ∀ j, TopBounded (n + 1) (entries j) := fun j => (h j).mono (Nat.le_succ n)
  rw [TopTable.updateTop]
  split
  · exact hKept i
  · cases chooseSlot crc32 entries capacity c.key with
    | found j =>
      rw [writeSlot, Function.update_apply]
      split
      · refine (h j).count hRoom (c := c) ?_
        rw [counters_applyOps, opsTotals_foundOps]
      · exact hKept i
    | rewrite j =>
      rw [writeSlot, Function.update_apply]
      split
      · refine (topBounded_zeroed n).count hRoom (c := c) ?_
        rw [counters_applyOps, opsTotals_freshOps]
        rfl
      · exact hKept i

end Top

section Upstream

variable {n : Nat} {u : UpstreamEntry w}

theorem UpstreamBounded.mono (h : UpstreamBounded n u) {n' : Nat} (hn : n ≤ n') :
    UpstreamBounded n' u :=
  ⟨h.requests.trans hn, h.failures, h.statuses, h.status5xx⟩

theorem countStatus_eq (status : Nat) (u : UpstreamEntry w) : countStatus status u =
    { u with
      failures := u.failures + if status = 0 ∨ 500 ≤ status then 1 else 0
      status4xx := u.status4xx + if 400 ≤ status ∧ status < 500 then 1 else 0
      status5xx := u.status5xx + if 500 ≤ status then 1 else 0 } := by
  simp only [countStatus, upstreamFailure, Bool.or_eq_true, beq_iff_eq, decide_eq_true_eq]
  split_ifs <;> simp

theorem UpstreamBounded.count (h : UpstreamBounded n u) (hRoom : n + 1 < 2 ^ w) (c : UpstreamCall w) :
    UpstreamBounded (n + 1) (countUpstream c u) := by
  have hRequests := h.requests
  have hFailures := h.failures
  have hStatuses := h.statuses
  have hStatus5xx := h.status5xx
  have hNext : (u.requests + 1).toNat = u.requests.toNat + 1 := toNat_add_one (by omega)
  rw [countUpstream, countStatus_eq]
  constructor
  · show (u.requests + 1).toNat ≤ n + 1
    omega
  · show (u.failures + if _ then 1 else 0).toNat ≤ (u.requests + 1).toNat
    rw [hNext, toNat_add_ite (by omega)]
    split <;> omega
  · show (u.status4xx + if _ then 1 else 0).toNat + (u.status5xx + if _ then 1 else 0).toNat ≤
      (u.requests + 1).toNat
    rw [hNext, toNat_add_ite (by omega), toNat_add_ite (by omega)]
    split_ifs <;> omega
  · show (u.status5xx + if _ then 1 else 0).toNat ≤ (u.failures + if _ then 1 else 0).toNat
    rw [toNat_add_ite (by omega), toNat_add_ite (by omega)]
    split_ifs <;> omega

variable {entries : Nat → UpstreamEntry w}

theorem UpstreamBounded.updateUpstreamSlot (h : ∀ i, UpstreamBounded n (entries i))
    (hRoom : n + 1 < 2 ^ w) (crc32 : Bytes → BitVec 32) (capacity : Nat) (c : UpstreamCall w) (i : Nat) :
    UpstreamBounded (n + 1) (TopTable.updateUpstreamSlot crc32 entries capacity c i) := by
  have hKept : ∀ j, UpstreamBounded (n + 1) (entries j) := fun j => (h j).mono (Nat.le_succ n)
  rw [updateUpstreamSlot_eq]
  split
  · exact hKept i
  · generalize Library.SlotTable.scan _ (upstreamHolds crc32 c.peer) capacity entries _ _ = choice
    unfold writeUpstream
    cases choice with
    | found j =>
      dsimp only
      rw [Function.update_apply]
      split
      · refine UpstreamBounded.count ?_ hRoom c
        exact ⟨(h j).requests, (h j).failures, (h j).statuses, (h j).status5xx⟩
      · exact hKept i
    | rewrite j =>
      dsimp only
      rw [Function.update_apply]
      split
      · refine UpstreamBounded.count ?_ hRoom c
        exact ⟨Nat.zero_le _, Nat.zero_le _, Nat.zero_le _, Nat.zero_le _⟩
      · exact hKept i

end Upstream

/-- A call with the configuration of its worker. -/
structure AccountedCall (w : Nat) where
  conf : MainConf w
  shpool : Bool
  call : Call w

section Runs

variable (crc32 : Bytes → BitVec 32)

def AccountedCall.apply (a : AccountedCall w) (sh : Shctx w) : Shctx w :=
  accountRequest crc32 a.conf a.shpool a.call sh

def accountedRun (conf : MainConf w) (calls : List (AccountedCall w)) : Shctx w :=
  calls.foldl (fun sh a => a.apply crc32 sh) (freshZone conf)

end Runs

def upstreamEvents (calls : List (AccountedCall w)) : Nat :=
  (calls.map fun a => a.call.request.upstreamStates.length).sum

structure ErrorsBounded (sh : Shctx w) : Prop where
  workers : ∀ slot, (sh.workers slot).errors.toNat ≤ (sh.workers slot).requests.toNat
  urls : ∀ i, (sh.urls i).errors.toNat ≤ (sh.urls i).hits.toNat
  userAgents : ∀ i, (sh.userAgents i).errors.toNat ≤ (sh.userAgents i).hits.toNat
  failures : ∀ i, (sh.upstreams i).failures.toNat ≤ (sh.upstreams i).requests.toNat
  upstreamStatuses : ∀ i, (sh.upstreams i).status4xx.toNat + (sh.upstreams i).status5xx.toNat ≤
    (sh.upstreams i).requests.toNat
  upstream5xx : ∀ i, (sh.upstreams i).status5xx.toNat ≤ (sh.upstreams i).failures.toNat
  statuses : sh.requests.status4xx.toNat + sh.requests.status5xx.toNat ≤ sh.requests.total.toNat

variable (w) in
/-- The three tables after `n` calls with `m` upstream states. -/
structure TablesBounded (n m : Nat) (sh : Shctx w) : Prop where
  urls : ∀ i, TopBounded n (sh.urls i)
  userAgents : ∀ i, TopBounded n (sh.userAgents i)
  upstreams : ∀ i, UpstreamBounded m (sh.upstreams i)

theorem upstreamBounded_states {n : Nat} {c : Call w} {crc32 : Bytes → BitVec 32}
    {entries : Nat → UpstreamEntry w} (states : List (UpstreamState w))
    (h : ∀ i, UpstreamBounded n (entries i)) (hRoom : n + states.length < 2 ^ w) (i : Nat) :
    UpstreamBounded (n + states.length) (states.foldl (fun entries state =>
      updateUpstreamSlot crc32 entries upstreamsMax (c.upstreamCall state)) entries i) := by
  induction states generalizing n entries with
  | nil => exact h i
  | cons state states ih =>
    rw [List.length_cons] at hRoom ⊢
    have hNext := UpstreamBounded.updateUpstreamSlot h (by omega) crc32 upstreamsMax (c.upstreamCall state)
    have hRest := ih hNext (by omega)
    rwa [Nat.add_assoc, Nat.add_comm 1] at hRest

theorem TablesBounded.apply {n m : Nat} {sh : Shctx w} (h : TablesBounded w n m sh)
    (a : AccountedCall w) (hCalls : n + 1 < 2 ^ w)
    (hStates : m + a.call.request.upstreamStates.length < 2 ^ w) (crc32 : Bytes → BitVec 32) :
    TablesBounded w (n + 1) (m + a.call.request.upstreamStates.length) (a.apply crc32 sh) := by
  have hKept : ∀ i, TopBounded (n + 1) (sh.userAgents i) := fun i => (h.userAgents i).mono (Nat.le_succ n)
  refine ⟨fun i => ?_, fun i => ?_, fun i => ?_⟩
  · rw [AccountedCall.apply, urls_accountRequest]
    exact TopBounded.updateTop h.urls hCalls _ _ _ _ i
  · rw [AccountedCall.apply, userAgents_accountRequest]
    cases a.call.request.userAgent with
    | none => exact hKept i
    | some userAgent => exact TopBounded.updateTop h.userAgents hCalls _ _ _ _ i
  · rw [AccountedCall.apply, upstreams_accountRequest]
    split
    · exact (h.upstreams i).mono (Nat.le_add_right _ _)
    · exact upstreamBounded_states _ h.upstreams hStates i

theorem accountedRun_append (crc32 : Bytes → BitVec 32) (conf : MainConf w)
    (calls : List (AccountedCall w)) (a : AccountedCall w) :
    accountedRun crc32 conf (calls ++ [a]) = a.apply crc32 (accountedRun crc32 conf calls) := by
  simp [accountedRun]

theorem tablesBounded_run (crc32 : Bytes → BitVec 32) (conf : MainConf w)
    (calls : List (AccountedCall w)) (hCalls : calls.length < 2 ^ w)
    (hStates : upstreamEvents calls < 2 ^ w) :
    TablesBounded w calls.length (upstreamEvents calls) (accountedRun crc32 conf calls) := by
  induction calls using List.reverseRecOn with
  | nil =>
    refine ⟨fun _ => topBounded_zeroed 0, fun _ => topBounded_zeroed 0, fun _ => ?_⟩
    exact ⟨Nat.zero_le _, Nat.zero_le _, Nat.zero_le _, Nat.zero_le _⟩
  | append_singleton calls a ih =>
    have hSum : upstreamEvents (calls ++ [a]) =
        upstreamEvents calls + a.call.request.upstreamStates.length := by simp [upstreamEvents]
    rw [hSum] at hStates ⊢
    rw [List.length_append, List.length_singleton] at hCalls ⊢
    rw [accountedRun_append]
    exact (ih (by omega) (by omega)).apply a hCalls hStates crc32

def runHits (d : Counter) (calls : List (AccountedCall w)) : Nat :=
  (calls.map fun a => callHits d a.call).sum

theorem read_accountedRun (d : Counter) (crc32 : Bytes → BitVec 32) (conf : MainConf w)
    (calls : List (AccountedCall w)) :
    d.read (accountedRun crc32 conf calls) = (runHits d calls : BitVec w) := by
  induction calls using List.reverseRecOn with
  | nil => cases d <;> rfl
  | append_singleton calls a ih =>
    have hSum : runHits d (calls ++ [a]) = runHits d calls + callHits d a.call := by simp [runHits]
    rw [accountedRun_append, AccountedCall.apply, read_accountRequest, ih, hSum, Nat.cast_add]

theorem toNat_read_accountedRun {d : Counter} (crc32 : Bytes → BitVec 32) (conf : MainConf w)
    {calls : List (AccountedCall w)} (h : runHits d calls < 2 ^ w) :
    (d.read (accountedRun crc32 conf calls)).toNat = runHits d calls := by
  rw [read_accountedRun, BitVec.natCast_eq_ofNat, BitVec.toNat_ofNat, Nat.mod_eq_of_lt h]

theorem runHits_le {d d' : Counter} {calls : List (AccountedCall w)}
    (h : ∀ a ∈ calls, callHits d a.call ≤ callHits d' a.call) : runHits d calls ≤ runHits d' calls :=
  List.sum_le_sum h

theorem runHits_total (calls : List (AccountedCall w)) : runHits .total calls = calls.length := by
  simp [runHits, callHits_total]

/-- The two tests for errors in `update_worker`, and the two of them together. -/
def Slow (c : Call w) : Prop := 30000 < c.latency.toNat

def Failed (c : Call w) : Prop := 500 ≤ c.status

instance (c : Call w) : Decidable (Slow c) := inferInstanceAs (Decidable (_ < _))
instance (c : Call w) : Decidable (Failed c) := inferInstanceAs (Decidable (_ ≤ _))

theorem callHits_workerErrors (c : Call w) (slot : Nat) : callHits (.workerErrors slot) c =
    if c.workerSlot = slot then (if Slow c then 1 else 0) + if Failed c then 1 else 0 else 0 := by
  rw [callHits, Call.countOps, opsHits_append, opsHits_append, opsHits_append,
    opsHits_sslOps (by simp), opsHits_keepaliveOps (by simp), Call.workerOps, opsHits_append,
    opsHits_append]
  simp only [Slow, Failed]
  split_ifs <;> simp [AccountOp.hits, statusCounter_ne c.status, *]

/-- The requests of a worker row that pass a test. -/
def rowCount (p : Call w → Prop) [DecidablePred p] (slot : Nat) (calls : List (AccountedCall w)) : Nat :=
  calls.countP fun a => a.call.workerSlot = slot ∧ p a.call

/-- Requests that were both slow and failed count twice; they are no more than
those that do not count at all. -/
def Compensated (slot : Nat) (calls : List (AccountedCall w)) : Prop :=
  rowCount (fun c => Slow c ∧ Failed c) slot calls ≤ rowCount (fun c => ¬ Slow c ∧ ¬ Failed c) slot calls

instance (slot : Nat) (calls : List (AccountedCall w)) : Decidable (Compensated slot calls) :=
  inferInstanceAs (Decidable (_ ≤ _))

theorem rowCount_cons (p : Call w → Prop) [DecidablePred p] (slot : Nat) (a : AccountedCall w)
    (calls : List (AccountedCall w)) : rowCount p slot (a :: calls) =
      rowCount p slot calls + if a.call.workerSlot = slot ∧ p a.call then 1 else 0 := by
  rw [rowCount, List.countP_cons, rowCount]
  simp only [decide_eq_true_eq]

theorem runHits_cons (d : Counter) (a : AccountedCall w) (calls : List (AccountedCall w)) :
    runHits d (a :: calls) = callHits d a.call + runHits d calls := by
  simp [runHits]

theorem runHits_workerErrors (slot : Nat) (calls : List (AccountedCall w)) :
    runHits (.workerErrors slot) calls + rowCount (fun c => ¬ Slow c ∧ ¬ Failed c) slot calls =
      runHits (.workerRequests slot) calls + rowCount (fun c => Slow c ∧ Failed c) slot calls := by
  induction calls with
  | nil => rfl
  | cons a calls ih =>
    rw [runHits_cons, runHits_cons, rowCount_cons, rowCount_cons, callHits_workerErrors,
      callHits_workerRequests]
    by_cases hSlot : a.call.workerSlot = slot <;> by_cases hSlow : Slow a.call <;>
      by_cases hFailed : Failed a.call <;> simp only [hSlot, hSlow, hFailed, if_true, if_false, and_true,
        and_false, not_true, not_false_iff] <;> omega

theorem runHits_statuses (calls : List (AccountedCall w)) :
    runHits .status4xx calls + runHits .status5xx calls ≤ calls.length := by
  induction calls with
  | nil => exact Nat.le_refl 0
  | cons a calls ih =>
    rw [runHits_cons, runHits_cons, List.length_cons, callHits_ofRequests (d := .status4xx) trivial,
      callHits_ofRequests (d := .status5xx) trivial]
    cases statusCounter a.call.status <;> simp <;> omega

theorem runHits_workerRequests_le (slot : Nat) (calls : List (AccountedCall w)) :
    runHits (.workerRequests slot) calls ≤ calls.length := by
  rw [← runHits_total]
  refine runHits_le fun a _ => ?_
  rw [callHits_workerRequests, callHits_total]
  split <;> omega

section Bounds

variable (crc32 : Bytes → BitVec 32) (conf : MainConf w) {calls : List (AccountedCall w)}

theorem worker_errors_iff (hCalls : 2 * calls.length < 2 ^ w) (slot : Nat) :
    ((accountedRun crc32 conf calls).workers slot).errors.toNat ≤
        ((accountedRun crc32 conf calls).workers slot).requests.toNat ↔ Compensated slot calls := by
  have hSum := runHits_workerErrors slot calls
  have hRequests := runHits_workerRequests_le slot calls
  have hBoth : rowCount (fun c : Call w => Slow c ∧ Failed c) slot calls ≤ calls.length :=
    List.countP_le_length
  have hErrorsRead : ((accountedRun crc32 conf calls).workers slot).errors.toNat = _ :=
    toNat_read_accountedRun (d := .workerErrors slot) crc32 conf (by omega)
  have hRequestsRead : ((accountedRun crc32 conf calls).workers slot).requests.toNat = _ :=
    toNat_read_accountedRun (d := .workerRequests slot) crc32 conf (by omega)
  rw [hErrorsRead, hRequestsRead, Compensated]
  omega

theorem worker_errors_le (hCalls : calls.length < 2 ^ w) {slot : Nat} (h : Compensated slot calls) :
    ((accountedRun crc32 conf calls).workers slot).errors.toNat ≤
      ((accountedRun crc32 conf calls).workers slot).requests.toNat := by
  have hSum := runHits_workerErrors slot calls
  have hRequests := runHits_workerRequests_le slot calls
  rw [Compensated] at h
  have hErrorsRead : ((accountedRun crc32 conf calls).workers slot).errors.toNat = _ :=
    toNat_read_accountedRun (d := .workerErrors slot) crc32 conf (by omega)
  have hRequestsRead : ((accountedRun crc32 conf calls).workers slot).requests.toNat = _ :=
    toNat_read_accountedRun (d := .workerRequests slot) crc32 conf (by omega)
  rw [hErrorsRead, hRequestsRead]
  omega

theorem errorsBounded_run (hCalls : calls.length < 2 ^ w) (hStates : upstreamEvents calls < 2 ^ w)
    (h : ∀ slot, Compensated slot calls) : ErrorsBounded (accountedRun crc32 conf calls) := by
  have hTables := tablesBounded_run crc32 conf calls hCalls hStates
  refine ⟨fun slot => worker_errors_le crc32 conf hCalls (h slot), fun i => (hTables.urls i).errors,
    fun i => (hTables.userAgents i).errors, fun i => (hTables.upstreams i).failures,
    fun i => (hTables.upstreams i).statuses, fun i => (hTables.upstreams i).status5xx, ?_⟩
  have hSum := runHits_statuses calls
  have hTotal := runHits_total calls
  have hTotalRead : (accountedRun crc32 conf calls).requests.total.toNat = _ :=
    toNat_read_accountedRun (d := .total) crc32 conf (by omega)
  have h4xxRead : (accountedRun crc32 conf calls).requests.status4xx.toNat = _ :=
    toNat_read_accountedRun (d := .status4xx) crc32 conf (by omega)
  have h5xxRead : (accountedRun crc32 conf calls).requests.status5xx.toNat = _ :=
    toNat_read_accountedRun (d := .status5xx) crc32 conf (by omega)
  rw [hTotalRead, h4xxRead, h5xxRead, hTotal]
  exact hSum

/-- The inequalities hold exactly while, in every worker row, the requests that
count twice are made up for; the second direction asks for room for the errors. -/
theorem errors_bounded_in_runs (hCalls : calls.length < 2 ^ w)
    (hStates : upstreamEvents calls < 2 ^ w) :
    ((∀ slot, Compensated slot calls) → ErrorsBounded (accountedRun crc32 conf calls)) ∧
      (2 * calls.length < 2 ^ w → ErrorsBounded (accountedRun crc32 conf calls) →
        ∀ slot, Compensated slot calls) :=
  ⟨errorsBounded_run crc32 conf hCalls hStates,
    fun hRoom h slot => (worker_errors_iff crc32 conf hRoom slot).mp (h.workers slot)⟩

end Bounds

theorem compensated_of_once {calls : List (AccountedCall w)}
    (h : ∀ a ∈ calls, ¬ (Slow a.call ∧ Failed a.call)) (slot : Nat) : Compensated slot calls := by
  have hNone : rowCount (fun c : Call w => Slow c ∧ Failed c) slot calls = 0 := by
    rw [rowCount, List.countP_eq_zero]
    intro a ha hBoth
    exact h a ha (of_decide_eq_true hBoth).2
  rw [Compensated, hNone]
  exact Nat.zero_le _

def defaultConf : MainConf 64 := withDefaults createMainConf

/-- A request for "/a" that ends `seconds` after its start, with one upstream. -/
def requestCall (status : Nat) (seconds : Int) : AccountedCall 64 where
  conf := defaultConf
  shpool := true
  call :=
    { request := ⟨1710000000, 0, status, 10, Nginx.httpGet, false, 1, ascii "/a", none,
        [⟨some (ascii "10.0.0.1:80"), 5, status⟩]⟩
      clock := ⟨1710000000 + seconds, 0⟩
      worker := ⟨0, 4000⟩ }

theorem slow_failure_counts_twice :
    ¬ ErrorsBounded (accountedRun (fun _ => 0) defaultConf [requestCall 504 31]) := by
  intro h
  have hRow := h.workers 0
  rw [worker_errors_iff _ defaultConf (by decide)] at hRow
  exact absurd hRow (by decide)

theorem errors_bounded_in_two_requests :
    ErrorsBounded (accountedRun (fun _ => 0) defaultConf [requestCall 504 2, requestCall 200 31]) :=
  (errors_bounded_in_runs _ defaultConf (by decide) (by decide)).1 (compensated_of_once (by decide))

end HttpMonitoring.ErrorCounters
