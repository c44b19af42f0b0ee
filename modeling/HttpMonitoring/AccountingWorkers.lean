import HttpMonitoring.Accounting
import HttpMonitoring.Zone
import HttpMonitoring.Library.Interleaving

/-!
# Workers that account requests at the same time

Every access of a call is a step of its own. Once a worker has made its
accesses to the counters it may write the slot tables as it likes, in any
number of steps, before it returns.
-/

namespace HttpMonitoring.AccountingWorkers

open Library.Buckets Library.Interleaving TopTable Accounting Zone

variable {w : Nat} {ι : Type*} [DecidableEq ι]

/-- No call, or the accesses to the counters that a call still makes. -/
abbrev Phase (w : Nat) := Option (List (AccountOp w))

/-- The zone, and for the statements the calls made so far. -/
structure Shared (w : Nat) where
  sh : Shctx w
  made : List (Call w)

inductive Label (ι : Type*) (w : Nat)
  | call (i : ι) (c : Call w)
  | access (i : ι)
  | tables (i : ι) (urls userAgents : Nat → TopEntry w) (upstreams : Nat → UpstreamEntry w)
  | finish (i : ι)

def step (cfg : Config ι (Shared w) (Phase w)) : Label ι w → Option (Config ι (Shared w) (Phase w))
  | .call i c =>
    match cfg.phase i with
    | none => some (cfg.put i (some c.countOps) { cfg.shared with made := cfg.shared.made ++ [c] })
    | some _ => none
  | .access i =>
    match cfg.phase i with
    | some (op :: ops) => some (cfg.put i (some ops) { cfg.shared with sh := op.apply cfg.shared.sh })
    | _ => none
  | .tables i urls userAgents upstreams =>
    match cfg.phase i with
    | some [] => some (cfg.put i (some [])
        { cfg.shared with sh := withTables cfg.shared.sh urls userAgents upstreams })
    | _ => none
  | .finish i =>
    match cfg.phase i with
    | some [] => some (cfg.put i none cfg.shared)
    | _ => none

def start (sh : Shctx w) : Config ι (Shared w) (Phase w) where
  shared := ⟨sh, []⟩
  phase _ := none

theorem alone_accesses (cfg : Config ι (Shared w) (Phase w)) (i : ι) (ops : List (AccountOp w))
    (shared : Shared w) : Reaches step (fun _ _ => True) (cfg.put i (some ops) shared)
      (cfg.put i (some []) { shared with sh := applyOps ops shared.sh }) := by
  induction ops generalizing shared with
  | nil => exact .start
  | cons op ops ih =>
    have hFirst : step (cfg.put i (some (op :: ops)) shared) (.access i) =
        some (cfg.put i (some ops) { shared with sh := op.apply shared.sh }) := by
      rw [step, Config.put_phase_self]
      simp only [Config.put_put, Config.put_shared]
    exact (Reaches.next .start trivial hFirst).trans (ih _)

theorem alone_accountRequest (crc32 : Bytes → BitVec 32) (conf : MainConf w) (shpool : Bool)
    {cfg : Config ι (Shared w) (Phase w)} {i : ι} (hIdle : cfg.phase i = none) (c : Call w) :
    Reaches step (fun _ _ => True) cfg (cfg.put i none
      ⟨accountRequest crc32 conf shpool c cfg.shared.sh, cfg.shared.made ++ [c]⟩) := by
  obtain ⟨urls, userAgents, upstreams, hTables⟩ :=
    updateTables_writes crc32 conf shpool c (applyOps c.countOps cfg.shared.sh)
  have hCall : step cfg (.call i c) = some (cfg.put i (some c.countOps)
      { cfg.shared with made := cfg.shared.made ++ [c] }) := by
    rw [step, hIdle]
  have hAccesses := (Reaches.next .start trivial hCall).trans (alone_accesses cfg i c.countOps _)
  have hWrites := Reaches.next (l := .tables i urls userAgents upstreams) hAccesses trivial
    (by rw [step, Config.put_phase_self])
  have hReturns := Reaches.next (l := .finish i) hWrites trivial
    (by rw [step, Config.put_phase_self])
  rw [accountRequest, hTables]
  simpa only [Config.put_put, Config.put_shared] using hReturns

inductive Moves (sh : Shctx w) : Phase w → Phase w → Shctx w → Prop
  | access (op : AccountOp w) (ops : List (AccountOp w)) :
      Moves sh (some (op :: ops)) (some ops) (op.apply sh)
  | tables (urls userAgents : Nat → TopEntry w) (upstreams : Nat → UpstreamEntry w) :
      Moves sh (some []) (some []) (withTables sh urls userAgents upstreams)
  | finish : Moves sh (some []) none sh

theorem step_cases {cfg cfg' : Config ι (Shared w) (Phase w)} {l : Label ι w}
    (h : step cfg l = some cfg') :
    (∃ i c, cfg.phase i = none ∧
      cfg' = cfg.put i (some c.countOps) { cfg.shared with made := cfg.shared.made ++ [c] }) ∨
    ∃ i p sh, Moves cfg.shared.sh (cfg.phase i) p sh ∧
      cfg' = cfg.put i p { cfg.shared with sh := sh } := by
  cases l with
  | call i c =>
    rw [step] at h
    split at h
    · rename_i hIdle
      exact Or.inl ⟨i, c, hIdle, (Option.some.inj h).symm⟩
    · cases h
  | access i =>
    rw [step] at h
    split at h
    · rename_i op ops hPhase
      exact Or.inr ⟨i, _, _, hPhase ▸ .access op ops, (Option.some.inj h).symm⟩
    · cases h
  | tables i urls userAgents upstreams =>
    rw [step] at h
    split at h
    · rename_i hPhase
      refine Or.inr ⟨i, _, _, ?_, (Option.some.inj h).symm⟩
      rw [hPhase]
      exact .tables urls userAgents upstreams
    · cases h
  | finish i =>
    rw [step] at h
    split at h
    · rename_i hPhase
      exact Or.inr ⟨i, _, _, hPhase ▸ .finish, (Option.some.inj h).symm⟩
    · cases h

def madeHits (d : Counter) (made : List (Call w)) : Nat := (made.map (callHits d)).sum

/-- The increments of a counter that a worker still owes. -/
def due (d : Counter) : Phase w → Nat
  | none => 0
  | some ops => opsHits d ops

def value (d : Counter) (shared : Shared w) : Nat := (d.read shared.sh).toNat

def InCall : Phase w → Prop
  | none => True
  | some ops => ∃ c : Call w, ops <:+ c.countOps

structure Inv [Fintype ι] (cfg : Config ι (Shared w) (Phase w)) : Prop where
  phases : ∀ i, InCall (cfg.phase i)
  balanced : ∀ d, madeHits d cfg.shared.made < 2 ^ w →
    cfg.balance (value d) (due d) = madeHits d cfg.shared.made

theorem madeHits_append (d : Counter) (made : List (Call w)) (c : Call w) :
    madeHits d (made ++ [c]) = madeHits d made + callHits d c := by
  simp [madeHits]

/-- While the counter cannot wrap, an access counts as a number. -/
theorem value_apply (op : AccountOp w) (d : Counter) (shared : Shared w)
    (h : value d shared + op.hits d < 2 ^ w) :
    value d { shared with sh := op.apply shared.sh } = value d shared + op.hits d := by
  rw [value, value, read_apply, BitVec.toNat_add, BitVec.natCast_eq_ofNat, BitVec.toNat_ofNat,
    Nat.add_mod_mod]
  exact Nat.mod_eq_of_lt h

theorem Moves.inCall {sh sh' : Shctx w} {p p' : Phase w} (h : Moves sh p p' sh') (hCall : InCall p) :
    InCall p' := by
  cases h with
  | access op ops =>
    obtain ⟨c, hSuffix⟩ := hCall
    exact ⟨c, (List.suffix_cons op ops).trans hSuffix⟩
  | tables => exact hCall
  | finish => trivial

theorem Moves.value_add_due {shared : Shared w} {sh : Shctx w} {p p' : Phase w}
    (h : Moves shared.sh p p' sh) (d : Counter) (hBound : value d shared + due d p < 2 ^ w) :
    value d { shared with sh := sh } + due d p' = value d shared + due d p := by
  cases h with
  | access op ops =>
    have hSplit : due d (some (op :: ops)) = op.hits d + due d (some ops) := by
      simp [due, opsHits]
    rw [hSplit] at hBound ⊢
    rw [value_apply op d shared (by omega)]
    omega
  | tables urls userAgents upstreams => simp only [value, read_withTables]
  | finish => simp [due, opsHits]

variable [Fintype ι]

omit [DecidableEq ι] in
theorem inv_start {sh : Shctx w} (hZero : ∀ d : Counter, d.read sh = 0) :
    Inv (start sh : Config ι (Shared w) (Phase w)) where
  phases _ := trivial
  balanced d _ := by
    rw [Config.balance_of_idle (fun _ => rfl)]
    simp [start, value, hZero, madeHits]

theorem Inv.step {cfg cfg' : Config ι (Shared w) (Phase w)} {l : Label ι w} (h : Inv cfg)
    (hStep : step cfg l = some cfg') : Inv cfg' := by
  rcases step_cases hStep with ⟨i, c, hIdle, rfl⟩ | ⟨i, p, sh, hMoves, rfl⟩
  · refine ⟨Config.forall_put (P := fun _ p => InCall p) ⟨c, List.suffix_refl _⟩
      (fun j _ => h.phases j), fun d hBound => ?_⟩
    simp only [Config.put_shared] at hBound ⊢
    rw [madeHits_append] at hBound ⊢
    rw [Config.balance_put _ _ _ _ _ _ (callHits d c), h.balanced d (by omega)]
    rw [hIdle]
    simp [value, due, callHits]
  · refine ⟨Config.forall_put (P := fun _ p => InCall p) (hMoves.inCall (h.phases i))
      (fun j _ => h.phases j), fun d hBound => ?_⟩
    have hLess : madeHits d cfg.shared.made < 2 ^ w := hBound
    have hBalance := h.balanced d hLess
    have hOwn : value d cfg.shared + due d (cfg.phase i) < 2 ^ w := by
      have hLe := Finset.single_le_sum (f := fun i => due d (cfg.phase i))
        (fun _ _ => Nat.zero_le _) (Finset.mem_univ i)
      rw [Config.balance] at hBalance
      omega
    rw [Config.balance_put_same _ _ _ _ _ _ (hMoves.value_add_due d hOwn)]
    exact hBalance

theorem inv_reachable {sh : Shctx w} (hZero : ∀ d : Counter, d.read sh = 0)
    {cfg : Config ι (Shared w) (Phase w)} (h : Reaches step (fun _ _ => True) (start sh) cfg) :
    Inv cfg :=
  h.invariant (inv_start hZero) fun _ _ _ hInv _ hStep => hInv.step hStep

omit [DecidableEq ι] [Fintype ι] in
theorem madeHits_eq_length {d : Counter} (h : ∀ c : Call w, callHits d c = 1) (made : List (Call w)) :
    madeHits d made = made.length := by
  induction made with
  | nil => rfl
  | cons c made ih =>
    have hCons : madeHits d (c :: made) = callHits d c + madeHits d made := by simp [madeHits]
    rw [hCons, h c, ih, List.length_cons, Nat.add_comm]

omit [DecidableEq ι] [Fintype ι] in
theorem sum_madeHits {family : Finset Counter} (h : Classifies w family) (made : List (Call w)) :
    ∑ d ∈ family, madeHits d made = made.length := by
  induction made with
  | nil => simp [madeHits]
  | cons c made ih =>
    have hCons : ∀ d, madeHits d (c :: made) = callHits d c + madeHits d made := by
      intro d
      simp [madeHits]
    simp only [hCons]
    rw [Finset.sum_add_distrib, h c, ih, List.length_cons, Nat.add_comm]

omit [DecidableEq ι] [Fintype ι] in
theorem madeHits_le {family : Finset Counter} (h : Classifies w family) {d : Counter}
    (hd : d ∈ family) (made : List (Call w)) : madeHits d made ≤ made.length := by
  rw [← sum_madeHits h made]
  exact Finset.single_le_sum (f := fun d => madeHits d made) (fun _ _ => Nat.zero_le _) hd

/-- `total` is the first cell a call increments: whoever still owes it owes
the increment in every family as well. -/
theorem due_total_le {family : Finset Counter} (h : Classifies w family) {p : Phase w}
    (hCall : InCall p) : due .total p ≤ ∑ d ∈ family, due d p := by
  cases p with
  | none => exact Nat.zero_le _
  | some ops =>
    obtain ⟨c, hSuffix⟩ := hCall
    obtain ⟨rest, hOps⟩ : ∃ rest, c.countOps = .increment .total :: rest := ⟨_, rfl⟩
    have hTotal := callHits_total c
    have hFamily := h c
    simp only [callHits, hOps] at hTotal hFamily
    rw [hOps, List.suffix_cons_iff] at hSuffix
    rcases hSuffix with rfl | hRest
    · simp only [due, hTotal, hFamily, Nat.le_refl]
    · obtain ⟨before, rfl⟩ := hRest
      rw [opsHits_cons, opsHits_append, AccountOp.hits, if_pos rfl] at hTotal
      have hNone : due .total (some ops) = 0 := by
        rw [due]
        omega
      rw [hNone]
      exact Nat.zero_le _

omit [DecidableEq ι] in
theorem Inv.sum_balance {cfg : Config ι (Shared w) (Phase w)} (h : Inv cfg)
    {family : Finset Counter} (hFamily : Classifies w family)
    (hCalls : cfg.shared.made.length < 2 ^ w) :
    ∑ d ∈ family, value d cfg.shared + ∑ i, ∑ d ∈ family, due d (cfg.phase i) =
      cfg.shared.made.length := by
  rw [Finset.sum_comm, ← Finset.sum_add_distrib, ← sum_madeHits hFamily]
  apply Finset.sum_congr rfl
  intro d hd
  exact h.balanced d ((madeHits_le hFamily hd _).trans_lt hCalls)

omit [DecidableEq ι] in
theorem Inv.total_balance {cfg : Config ι (Shared w) (Phase w)} (h : Inv cfg)
    (hCalls : cfg.shared.made.length < 2 ^ w) :
    value .total cfg.shared + ∑ i, due .total (cfg.phase i) = cfg.shared.made.length := by
  have hMade := madeHits_eq_length callHits_total cfg.shared.made
  rw [← hMade]
  exact h.balanced .total (by omega)

omit [DecidableEq ι] in
theorem Inv.sum_le_total {cfg : Config ι (Shared w) (Phase w)} (h : Inv cfg)
    {family : Finset Counter} (hFamily : Classifies w family)
    (hCalls : cfg.shared.made.length < 2 ^ w) :
    ∑ d ∈ family, value d cfg.shared ≤ value .total cfg.shared := by
  have hOwed : ∑ i, due .total (cfg.phase i) ≤ ∑ i, ∑ d ∈ family, due d (cfg.phase i) :=
    Finset.sum_le_sum fun i _ => due_total_le hFamily (h.phases i)
  have hSum := h.sum_balance hFamily hCalls
  have hTotal := h.total_balance hCalls
  omega

omit [DecidableEq ι] in
theorem Inv.value_of_idle {cfg : Config ι (Shared w) (Phase w)} (h : Inv cfg)
    (hIdle : ∀ i, cfg.phase i = none) (d : Counter) (hBound : madeHits d cfg.shared.made < 2 ^ w) :
    value d cfg.shared = madeHits d cfg.shared.made := by
  rw [← h.balanced d hBound, Config.balance_of_idle]
  intro i
  rw [hIdle i]
  rfl

omit [DecidableEq ι] in
theorem Inv.sum_of_idle {cfg : Config ι (Shared w) (Phase w)} (h : Inv cfg)
    (hIdle : ∀ i, cfg.phase i = none) {family : Finset Counter} (hFamily : Classifies w family)
    (hCalls : cfg.shared.made.length < 2 ^ w) :
    ∑ d ∈ family, value d cfg.shared = cfg.shared.made.length := by
  have hNone : ∑ i, ∑ d ∈ family, due d (cfg.phase i) = 0 := by
    apply Finset.sum_eq_zero
    intro i _
    rw [hIdle i]
    exact Finset.sum_eq_zero fun d _ => rfl
  rw [← h.sum_balance hFamily hCalls, hNone, Nat.add_zero]

omit [DecidableEq ι] [Fintype ι] in
theorem madeHits_eq_filter {d : Counter} {P : Call w → Prop} [DecidablePred P]
    (h : ∀ c, callHits d c = if P c then 1 else 0) (made : List (Call w)) :
    madeHits d made = (made.filter P).length := by
  induction made with
  | nil => rfl
  | cons c made ih =>
    have hCons : madeHits d (c :: made) = callHits d c + madeHits d made := by simp [madeHits]
    rw [hCons, h c, ih, List.filter_cons]
    split <;> rename_i hP <;> simp [hP, Nat.add_comm]

omit [DecidableEq ι] in
theorem Inv.value_eq_filter {cfg : Config ι (Shared w) (Phase w)} (h : Inv cfg)
    (hIdle : ∀ i, cfg.phase i = none) (hCalls : cfg.shared.made.length < 2 ^ w) {d : Counter}
    {P : Call w → Prop} [DecidablePred P] (hHits : ∀ c, callHits d c = if P c then 1 else 0) :
    value d cfg.shared = (cfg.shared.made.filter P).length := by
  have hFilter := madeHits_eq_filter hHits cfg.shared.made
  have hShort : madeHits d cfg.shared.made < 2 ^ w := by
    rw [hFilter]
    exact (List.length_filter_le _ _).trans_lt hCalls
  exact (h.value_of_idle hIdle d hShort).trans hFilter

def methodSum (sh : Shctx w) : Nat := ∑ i ∈ Finset.range methods, (sh.requests.method i).toNat

def latencySum (sh : Shctx w) : Nat :=
  ∑ i ∈ Finset.range latencyBuckets, (sh.requests.latencyBucket i).toNat

def sizeSum (sh : Shctx w) : Nat := ∑ i ∈ Finset.range sizeBuckets, (sh.requests.sizeBucket i).toNat

def statusSum (sh : Shctx w) : Nat :=
  sh.requests.status1xx.toNat + sh.requests.status2xx.toNat + sh.requests.status3xx.toNat +
    sh.requests.status4xx.toNat + sh.requests.status5xx.toNat

def workerSum (sh : Shctx w) : Nat :=
  ∑ slot ∈ Finset.range workersMax, (sh.workers slot).requests.toNat

/-- Holds also while calls are in progress. -/
structure Bounded (sh : Shctx w) : Prop where
  method : methodSum sh ≤ sh.requests.total.toNat
  latency : latencySum sh ≤ sh.requests.total.toNat
  size : sizeSum sh ≤ sh.requests.total.toNat
  status : statusSum sh ≤ sh.requests.total.toNat

/-- Holds once the calls made have returned. -/
structure Conserved (sh : Shctx w) (made : List (Call w)) : Prop where
  total : sh.requests.total.toNat = made.length
  responses : sh.requests.responses.toNat = sh.requests.total.toNat
  method : methodSum sh = sh.requests.total.toNat
  latency : latencySum sh = sh.requests.total.toNat
  size : sizeSum sh = sh.requests.total.toNat
  status : statusSum sh = sh.requests.total.toNat
  worker : workerSum sh = sh.requests.total.toNat
  latencyBucket : ∀ i < latencyBuckets, (sh.requests.latencyBucket i).toNat =
    (made.filter fun c => InBucket latencyBounds i c.latency.toNat).length
  sizeBucket : ∀ i < sizeBuckets, (sh.requests.sizeBucket i).toNat =
    (made.filter fun c => InBucket sizeBounds i c.bytes).length

theorem sum_image_value {n : Nat} {counter : Nat → Counter} (h : counter.Injective)
    (shared : Shared w) : ∑ d ∈ (Finset.range n).image counter, value d shared =
      ∑ i ∈ Finset.range n, value (counter i) shared :=
  Finset.sum_image fun _ _ _ _ hSame => h hSame

theorem methodSum_eq (shared : Shared w) :
    ∑ d ∈ methodCounters, value d shared = methodSum shared.sh :=
  sum_image_value (fun _ _ h => Counter.method.inj h) shared

theorem latencySum_eq (shared : Shared w) :
    ∑ d ∈ latencyCounters, value d shared = latencySum shared.sh :=
  sum_image_value (fun _ _ h => Counter.latencyBucket.inj h) shared

theorem sizeSum_eq (shared : Shared w) : ∑ d ∈ sizeCounters, value d shared = sizeSum shared.sh :=
  sum_image_value (fun _ _ h => Counter.sizeBucket.inj h) shared

theorem workerSum_eq (shared : Shared w) :
    ∑ d ∈ workerCounters, value d shared = workerSum shared.sh :=
  sum_image_value (fun _ _ h => Counter.workerRequests.inj h) shared

theorem statusSum_eq (shared : Shared w) :
    ∑ d ∈ statusCounters, value d shared = statusSum shared.sh := by
  simp [statusCounters, statusSum, value, Counter.read, add_assoc]

theorem latencyBounds_sorted : latencyBounds.Pairwise (· < ·) := by decide

theorem sizeBounds_sorted : sizeBounds.Pairwise (· < ·) := by decide

theorem accountRequest_conserves (conf : MainConf w) {cfg : Config ι (Shared w) (Phase w)}
    (h : Reaches step (fun _ _ => True) (start (freshZone conf)) cfg)
    (hCalls : cfg.shared.made.length < 2 ^ w) :
    Bounded cfg.shared.sh ∧
      ((∀ i, cfg.phase i = none) → Conserved cfg.shared.sh cfg.shared.made) := by
  have hZero : ∀ d : Counter, d.read (freshZone conf) = 0 := by
    intro d
    cases d <;> rfl
  have hInv := inv_reachable hZero h
  constructor
  · refine ⟨?_, ?_, ?_, ?_⟩
    · rw [← methodSum_eq]
      exact hInv.sum_le_total classifies_method hCalls
    · rw [← latencySum_eq]
      exact hInv.sum_le_total classifies_latency hCalls
    · rw [← sizeSum_eq]
      exact hInv.sum_le_total classifies_size hCalls
    · rw [← statusSum_eq]
      exact hInv.sum_le_total classifies_status hCalls
  · intro hIdle
    have hMade := madeHits_eq_length callHits_total cfg.shared.made
    have hResponses := madeHits_eq_length callHits_responses cfg.shared.made
    have hTotal : cfg.shared.sh.requests.total.toNat = cfg.shared.made.length :=
      (hInv.value_of_idle hIdle .total (by omega)).trans hMade
    refine ⟨hTotal, ?_, ?_, ?_, ?_, ?_, ?_, ?_, ?_⟩
    · rw [hTotal]
      exact (hInv.value_of_idle hIdle .responses (by omega)).trans hResponses
    · rw [hTotal, ← methodSum_eq]
      exact hInv.sum_of_idle hIdle classifies_method hCalls
    · rw [hTotal, ← latencySum_eq]
      exact hInv.sum_of_idle hIdle classifies_latency hCalls
    · rw [hTotal, ← sizeSum_eq]
      exact hInv.sum_of_idle hIdle classifies_size hCalls
    · rw [hTotal, ← statusSum_eq]
      exact hInv.sum_of_idle hIdle classifies_status hCalls
    · rw [hTotal, ← workerSum_eq]
      exact hInv.sum_of_idle hIdle classifies_worker hCalls
    · intro i _
      refine hInv.value_eq_filter hIdle hCalls (fun c => (callHits_latencyBucket c i).trans ?_)
      exact if_congr (bucketIndex_eq_iff latencyBounds_sorted _ i) rfl rfl
    · intro i _
      refine hInv.value_eq_filter hIdle hCalls (fun c => (callHits_sizeBucket c i).trans ?_)
      exact if_congr (bucketIndex_eq_iff sizeBounds_sorted _ i) rfl rfl

/-- A `GET` answered with 1024 bytes after 7 ms. -/
def callGet (slot : Int) : Call 64 where
  request := ⟨1710000000, 100, 200, 1024, 2, false, 1, ascii "/a", none, []⟩
  clock := ⟨1710000000, 107⟩
  worker := ⟨slot, 4000⟩

def interleavedGets : List (Label Bool 64) :=
  [.call false (callGet 0), .call true (callGet 1)] ++
    (List.replicate 12 [.access false, .access true]).flatten ++ [.finish true, .finish false]

def defaultConf : MainConf 64 := withDefaults createMainConf

theorem accountRequest_conserves_two_workers :
    ∃ cfg : Config Bool (Shared 64) (Phase 64),
      Reaches step (fun _ _ => True) (start (freshZone defaultConf)) cfg ∧
        cfg.shared.made = [callGet 0, callGet 1] ∧ Bounded cfg.shared.sh ∧
        Conserved cfg.shared.sh cfg.shared.made := by
  have hRun : ((run step (fun _ _ => True) (start (freshZone defaultConf)) interleavedGets).map
      fun cfg => decide ((∀ i, cfg.phase i = none) ∧ cfg.shared.made = [callGet 0, callGet 1])) =
        some true := by
    decide +kernel
  obtain ⟨cfg, hCfg, hEnd⟩ := Option.map_eq_some_iff.mp hRun
  obtain ⟨hIdle, hMade⟩ := of_decide_eq_true hEnd
  have hReaches := Reaches.of_run hCfg
  have hAll := accountRequest_conserves defaultConf hReaches (by rw [hMade]; decide)
  exact ⟨cfg, hReaches, hMade, hAll.1, hAll.2 hIdle⟩

end HttpMonitoring.AccountingWorkers
