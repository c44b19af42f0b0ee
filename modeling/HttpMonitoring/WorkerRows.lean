import HttpMonitoring.CollectorLock

/-!
# The rows of the workers

Workers start, tick, account requests and exit. Each has a row, keyed by its
process slot, that `init_collector` and the ticks put its pid into. A row that
is taken over from another worker is not cleared.
-/

namespace HttpMonitoring.WorkerRows

open Library.Interleaving Accounting Zone CollectorLock

variable {w : Nat}

/-- The values that were found in `/proc/self/status`. -/
structure SelfStatus (w : Nat) where
  vmSize : Option (BitVec w)
  vmRss : Option (BitVec w)
  voluntaryCtxt : Option (BitVec w)
  nonvoluntaryCtxt : Option (BitVec w)
deriving DecidableEq

/-- `none` when the file cannot be read. -/
def collectSelfStatus (processSlot : Int) (status : Option (SelfStatus w)) (sh : Shctx w) : Shctx w :=
  match status with
  | none => sh
  | some found =>
    if processSlot < 0 then sh
    else onWorker (processSlot.toNat % workersMax) (fun m => { m with
      vmSize := found.vmSize.getD m.vmSize
      vmRss := found.vmRss.getD m.vmRss
      voluntaryCtxt := found.voluntaryCtxt.getD m.voluntaryCtxt
      nonvoluntaryCtxt := found.nonvoluntaryCtxt.getD m.nonvoluntaryCtxt }) sh

/-- The writes of a pass: no stage of it touches the rows. -/
def keepRows (write : Shctx w → Shctx w) (sh : Shctx w) : Shctx w :=
  { write sh with workers := sh.workers }

/-- A worker process, and for the statements how many requests it has accounted. -/
structure Live (w : Nat) where
  process : Process w
  accounted : Nat
deriving DecidableEq

inductive Label (ι : Type*) (w : Nat)
  | spawn (i : ι) (slot : Int) (pid : BitVec w) (conf : MainConf w) (now : BitVec w)
  | tick (i : ι) (now : BitVec w) (status : Option (SelfStatus w)) (write : Shctx w → Shctx w)
  | account (i : ι) (request : Request w) (clock : Clock w)
  | exit (i : ι) (now : BitVec w)

def Live.row (l : Live w) : Nat := l.process.slot.toNat % workersMax

def Live.call (l : Live w) (request : Request w) (clock : Clock w) : Call w :=
  ⟨request, clock, ⟨l.process.slot, l.process.pid⟩⟩

variable {ι : Type*} [DecidableEq ι] (crc32 : Bytes → BitVec 32) (shpool : Bool)

def step (cfg : Config ι (Shctx w) (Option (Live w))) :
    Label ι w → Option (Config ι (Shctx w) (Option (Live w)))
  | .spawn i slot pid conf now =>
    match cfg.phase i with
    | none =>
      let p : Process w := ⟨slot, pid, conf, true, false, .waiting true⟩
      some (cfg.put i (some ⟨p, 0⟩) (p.register now cfg.shared))
    | some _ => none
  | .tick i now status write =>
    match cfg.phase i with
    | some l => some (cfg.put i (some l)
        (keepRows write (collectSelfStatus l.process.slot status (l.process.register now cfg.shared))))
    | none => none
  | .account i request clock =>
    match cfg.phase i with
    | some l => some (cfg.put i (some { l with accounted := l.accounted + 1 })
        (accountRequest crc32 l.process.conf shpool (l.call request clock) cfg.shared))
    | none => none
  | .exit i now =>
    match cfg.phase i with
    | some l => some (cfg.put i none (l.process.unregister now cfg.shared))
    | none => none

def start (conf : MainConf w) : Config ι (Shctx w) (Option (Live w)) where
  shared := freshZone conf
  phase _ := none

/-- A new process gets a slot and a pid that no live worker has. -/
def Distinct (cfg : Config ι (Shctx w) (Option (Live w))) : Label ι w → Prop
  | .spawn _ slot pid _ _ => 0 ≤ slot ∧ ∀ j, ∀ l ∈ cfg.phase j,
      l.process.slot ≠ slot ∧ l.process.pid ≠ pid
  | _ => True

/-- A worker starts with a row in which nothing was counted and that no live
worker uses. -/
def FreshRow (cfg : Config ι (Shctx w) (Option (Live w))) : Label ι w → Prop
  | .spawn _ slot _ _ _ => (cfg.shared.workers (slot.toNat % workersMax)).requests = 0 ∧
      ∀ j, ∀ l ∈ cfg.phase j, l.row ≠ slot.toNat % workersMax
  | _ => True

/-- The row of a live worker names it, is active and counts its requests. -/
structure Describes (l : Live w) (m : WorkerMetric w) : Prop where
  pid : m.pid = l.process.pid
  active : m.active = 1
  requests : m.requests = BitVec.ofNat w l.accounted

def Described (cfg : Config ι (Shctx w) (Option (Live w))) : Prop :=
  ∀ i l, cfg.phase i = some l → Describes l (cfg.shared.workers l.row)

/-- The fields of a row that name its worker and count for it. -/
def rowOf (sh : Shctx w) (row : Nat) : BitVec w × BitVec w × BitVec w :=
  ((sh.workers row).pid, (sh.workers row).active, (sh.workers row).requests)

theorem describes_iff {l : Live w} {sh : Shctx w} : Describes l (sh.workers l.row) ↔
    rowOf sh l.row = (l.process.pid, 1, BitVec.ofNat w l.accounted) := by
  constructor
  · rintro ⟨hPid, hActive, hRequests⟩
    rw [rowOf, hPid, hActive, hRequests]
  · intro h
    simp only [rowOf, Prod.mk.injEq] at h
    exact ⟨h.1, h.2.1, h.2.2⟩

theorem rowOf_register_self {l : Live w} (hSlot : 0 ≤ l.process.slot) (now : BitVec w)
    (sh : Shctx w) : rowOf (l.process.register now sh) l.row =
      (l.process.pid, 1, (sh.workers l.row).requests) := by
  rw [Process.register, if_pos hSlot]
  simp [rowOf, onWorker, Live.row]

theorem rowOf_register_of_ne {l : Live w} (now : BitVec w) (sh : Shctx w) {row : Nat}
    (hRow : row ≠ l.row) : rowOf (l.process.register now sh) row = rowOf sh row := by
  rw [Process.register]
  split
  · simp [rowOf, onWorker, Function.update_of_ne (show row ≠ l.process.slot.toNat % workersMax from hRow)]
  · rfl

@[simp] theorem rowOf_keepRows (write : Shctx w → Shctx w) (sh : Shctx w) (row : Nat) :
    rowOf (keepRows write sh) row = rowOf sh row :=
  rfl

@[simp] theorem rowOf_collectSelfStatus (slot : Int) (status : Option (SelfStatus w)) (sh : Shctx w)
    (row : Nat) : rowOf (collectSelfStatus slot status sh) row = rowOf sh row := by
  cases status with
  | none => rfl
  | some found =>
    rw [collectSelfStatus]
    split
    · rfl
    · simp only [rowOf, onWorker, Function.update_apply]
      split
      · rename_i hRow
        rw [hRow]
      · rfl

theorem rowOf_unregister_of_ne {l : Live w} (now : BitVec w) (sh : Shctx w) {row : Nat}
    (hRow : row ≠ l.row) : rowOf (l.process.unregister now sh) row = rowOf sh row := by
  rw [Process.unregister]
  split
  · simp [rowOf, onWorker, Function.update_of_ne (show row ≠ l.process.slot.toNat % workersMax from hRow)]
  · rfl

def nameOf (sh : Shctx w) (row : Nat) : BitVec w × BitVec w :=
  ((sh.workers row).pid, (sh.workers row).active)

theorem nameOf_apply {op : AccountOp w} {slot : Nat} {pid : BitVec w} {sh : Shctx w}
    (hStore : ∀ s p, op = .storePid s p → s = slot ∧ p = pid) (hPid : (sh.workers slot).pid = pid)
    (row : Nat) : nameOf (op.apply sh) row = nameOf sh row := by
  cases op with
  | increment c =>
    cases c with
    | workerRequests s | workerErrors s =>
      simp only [AccountOp.apply, Counter.increment, nameOf, onWorker, Function.update_apply]
      split
      · rename_i hRow
        rw [hRow]
      · rfl
    | _ => rfl
  | add a n =>
    cases a with
    | workerBytes s =>
      simp only [AccountOp.apply, Amount.add, nameOf, onWorker, Function.update_apply]
      split
      · rename_i hRow
        rw [hRow]
      · rfl
    | _ => rfl
  | storePid s p =>
    obtain ⟨rfl, rfl⟩ := hStore s p rfl
    simp only [AccountOp.apply, nameOf, onWorker, Function.update_apply]
    split
    · rename_i hRow
      rw [hRow, hPid]
    · rfl
  | storeLastSeen s now =>
    simp only [AccountOp.apply, nameOf, onWorker, Function.update_apply]
    split
    · rename_i hRow
      rw [hRow]
    · rfl

theorem nameOf_applyOps {ops : List (AccountOp w)} {slot : Nat} {pid : BitVec w} {sh : Shctx w}
    (hStore : ∀ op ∈ ops, ∀ s p, op = .storePid s p → s = slot ∧ p = pid)
    (hPid : (sh.workers slot).pid = pid) (row : Nat) :
    nameOf (applyOps ops sh) row = nameOf sh row := by
  induction ops generalizing sh with
  | nil => rfl
  | cons op ops ih =>
    have hFirst := nameOf_apply (hStore op List.mem_cons_self) hPid
    have hKept : ((op.apply sh).workers slot).pid = pid :=
      (congrArg Prod.fst (hFirst slot)).trans hPid
    exact (ih (fun o ho => hStore o (List.mem_cons_of_mem _ ho)) hKept).trans (hFirst row)

theorem storePid_of_mem_countOps {c : Call w} {s : Nat} {p : BitVec w}
    (h : .storePid s p ∈ c.countOps) : s = c.workerSlot ∧ p = c.worker.pid := by
  simp only [Call.countOps, Call.sslOps, Call.keepaliveOps, Call.workerOps, List.mem_append] at h
  grind

/-- Accounting counts in the row of the worker and leaves every name alone. -/
theorem rowOf_accountRequest (conf : MainConf w) {l : Live w} (hSlot : 0 ≤ l.process.slot)
    (request : Request w) (clock : Clock w) {sh : Shctx w}
    (hPid : (sh.workers l.row).pid = l.process.pid) (row : Nat) :
    rowOf (accountRequest crc32 conf shpool (l.call request clock) sh) row =
      ((sh.workers row).pid, (sh.workers row).active,
        (sh.workers row).requests + if row = l.row then 1 else 0) := by
  have hOwn : (l.call request clock).workerSlot = l.row := if_neg (not_lt.mpr hSlot)
  obtain ⟨urls, userAgents, upstreams, hTables⟩ := updateTables_writes crc32 conf shpool
    (l.call request clock) (applyOps (l.call request clock).countOps sh)
  have hName : nameOf (accountRequest crc32 conf shpool (l.call request clock) sh) row =
      nameOf sh row := by
    rw [accountRequest, hTables]
    have hStore : ∀ op ∈ (l.call request clock).countOps, ∀ s p, op = .storePid s p →
        s = l.row ∧ p = l.process.pid := by
      rintro op hOp s p rfl
      rw [← hOwn]
      exact storePid_of_mem_countOps hOp
    exact nameOf_applyOps hStore hPid row
  have hRequests := read_accountRequest (.workerRequests row) crc32 conf shpool
    (l.call request clock) sh
  rw [callHits_workerRequests, hOwn] at hRequests
  simp only [nameOf, Prod.mk.injEq] at hName
  rw [rowOf, hName.1, hName.2]
  refine congrArg (fun n => (_, _, n)) (hRequests.trans ?_)
  simp only [Counter.read, eq_comm]
  split <;> simp

/-- The live workers are described, in slots of their own and rows of their own. -/
structure Rows (cfg : Config ι (Shctx w) (Option (Live w))) : Prop where
  described : Described cfg
  slots : ∀ i l, cfg.phase i = some l → 0 ≤ l.process.slot
  apart : ∀ i j l l', cfg.phase i = some l → cfg.phase j = some l' → l.row = l'.row → i = j

section Steps

variable {cfg : Config ι (Shctx w) (Option (Live w))}

theorem Rows.put (h : Rows cfg) {i : ι} {l : Live w} {sh : Shctx w} (hSlot : 0 ≤ l.process.slot)
    (hApart : ∀ j l', j ≠ i → cfg.phase j = some l' → l'.row ≠ l.row)
    (hSelf : rowOf sh l.row = (l.process.pid, 1, BitVec.ofNat w l.accounted))
    (hOther : ∀ row, row ≠ l.row → rowOf sh row = rowOf cfg.shared row) :
    Rows (cfg.put i (some l) sh) := by
  constructor
  · intro j l' hPhase
    rcases eq_or_ne j i with rfl | hj
    · obtain rfl := Option.some.inj ((Config.put_phase_self cfg j _ _).symm.trans hPhase)
      exact describes_iff.mpr hSelf
    · rw [Config.put_phase_of_ne _ _ _ hj] at hPhase
      refine describes_iff.mpr ?_
      rw [Config.put_shared, hOther _ (hApart j l' hj hPhase)]
      exact describes_iff.mp (h.described j l' hPhase)
  · intro j l' hPhase
    rcases eq_or_ne j i with rfl | hj
    · obtain rfl := Option.some.inj ((Config.put_phase_self cfg j _ _).symm.trans hPhase)
      exact hSlot
    · rw [Config.put_phase_of_ne _ _ _ hj] at hPhase
      exact h.slots j l' hPhase
  · intro j k l' l'' hj hk hSame
    rcases eq_or_ne j i with rfl | hji
    · rcases eq_or_ne k j with rfl | hkj
      · rfl
      · obtain rfl := Option.some.inj ((Config.put_phase_self cfg j _ _).symm.trans hj)
        rw [Config.put_phase_of_ne _ _ _ hkj] at hk
        exact absurd hSame.symm (hApart k l'' hkj hk)
    · rw [Config.put_phase_of_ne _ _ _ hji] at hj
      rcases eq_or_ne k i with rfl | hki
      · obtain rfl := Option.some.inj ((Config.put_phase_self cfg k _ _).symm.trans hk)
        exact absurd hSame (hApart j l' hji hj)
      · rw [Config.put_phase_of_ne _ _ _ hki] at hk
        exact h.apart j k l' l'' hj hk hSame

omit [DecidableEq ι] in
theorem Rows.others (h : Rows cfg) {i : ι} {l : Live w} (hPhase : cfg.phase i = some l) (j : ι)
    (l' : Live w) (hj : j ≠ i) (hOther : cfg.phase j = some l') : l'.row ≠ l.row :=
  fun hSame => hj (h.apart j i l' l hOther hPhase hSame)

theorem Rows.exit (h : Rows cfg) {i : ι} {l : Live w} (hPhase : cfg.phase i = some l)
    (now : BitVec w) : Rows (cfg.put i none (l.process.unregister now cfg.shared)) := by
  have hLeft : ∀ j l', (cfg.put i none (l.process.unregister now cfg.shared)).phase j = some l' →
      j ≠ i ∧ cfg.phase j = some l' := by
    intro j l' hj
    rcases eq_or_ne j i with rfl | hji
    · rw [Config.put_phase_self] at hj
      cases hj
    · rw [Config.put_phase_of_ne _ _ _ hji] at hj
      exact ⟨hji, hj⟩
  constructor
  · intro j l' hj
    obtain ⟨hji, hOther⟩ := hLeft j l' hj
    refine describes_iff.mpr ?_
    rw [Config.put_shared, rowOf_unregister_of_ne now cfg.shared (h.others hPhase j l' hji hOther)]
    exact describes_iff.mp (h.described j l' hOther)
  · intro j l' hj
    exact h.slots j l' (hLeft j l' hj).2
  · intro j k l' l'' hj hk
    exact h.apart j k l' l'' (hLeft j l' hj).2 (hLeft k l'' hk).2

theorem Rows.next (h : Rows cfg) {cfg' : Config ι (Shctx w) (Option (Live w))} {label : Label ι w}
    (hDistinct : Distinct cfg label) (hFresh : FreshRow cfg label)
    (hStep : step crc32 shpool cfg label = some cfg') : Rows cfg' := by
  cases label with
  | spawn i slot pid conf now =>
    rw [step] at hStep
    split at hStep
    · obtain rfl := Option.some.inj hStep
      obtain ⟨hSlot, -⟩ := hDistinct
      obtain ⟨hZero, hFree⟩ := hFresh
      let l : Live w := ⟨⟨slot, pid, conf, true, false, .waiting true⟩, 0⟩
      have hStarts : Rows (cfg.put i (some l) (l.process.register now cfg.shared)) := by
        refine h.put hSlot (fun j l' _ hj => hFree j l' hj) ?_ fun row hRow =>
          rowOf_register_of_ne now cfg.shared hRow
        rw [rowOf_register_self hSlot]
        exact congrArg (fun n => (pid, 1, n)) hZero
      exact hStarts
    · cases hStep
  | tick i now status write =>
    rw [step] at hStep
    split at hStep
    · rename_i l hPhase
      obtain rfl := Option.some.inj hStep
      have hSlot := h.slots i l hPhase
      refine h.put hSlot (h.others hPhase) ?_ fun row hRow => ?_
      · rw [rowOf_keepRows, rowOf_collectSelfStatus, rowOf_register_self hSlot,
          (h.described i l hPhase).requests]
      · rw [rowOf_keepRows, rowOf_collectSelfStatus, rowOf_register_of_ne now cfg.shared hRow]
    · cases hStep
  | account i request clock =>
    rw [step] at hStep
    split at hStep
    · rename_i l hPhase
      obtain rfl := Option.some.inj hStep
      have hDescribes := h.described i l hPhase
      have hRow := rowOf_accountRequest crc32 shpool l.process.conf (h.slots i l hPhase) request clock
        hDescribes.pid
      let counted : Live w := { l with accounted := l.accounted + 1 }
      have hOthers : ∀ j l', j ≠ i → cfg.phase j = some l' → l'.row ≠ counted.row :=
        fun j l' hj hOther => h.others hPhase j l' hj hOther
      refine h.put (h.slots i l hPhase) hOthers ?_ fun row hOther => ?_
      · refine (hRow l.row).trans ?_
        rw [if_pos rfl, hDescribes.pid, hDescribes.active, hDescribes.requests, BitVec.ofNat_add]
        rfl
      · rw [hRow row, if_neg (show row ≠ l.row from hOther), add_zero, rowOf]
    · cases hStep
  | exit i now =>
    rw [step] at hStep
    split at hStep
    · rename_i l hPhase
      obtain rfl := Option.some.inj hStep
      exact h.exit hPhase now
    · cases hStep

/-- A worker that starts with a row in use is not described, or hides another
worker that is live. -/
theorem freshRow_of_described {cfg' : Config ι (Shctx w) (Option (Live w))} {label : Label ι w}
    (hDistinct : Distinct cfg label) (hStep : step crc32 shpool cfg label = some cfg')
    (h : Described cfg') : FreshRow cfg label := by
  cases label with
  | spawn i slot pid conf now =>
    rw [step] at hStep
    split at hStep
    · rename_i hPhase
      obtain rfl := Option.some.inj hStep
      obtain ⟨hSlot, hOthers⟩ := hDistinct
      let new : Live w := ⟨⟨slot, pid, conf, true, false, .waiting true⟩, 0⟩
      have hRow : rowOf (new.process.register now cfg.shared) new.row =
          (pid, 1, (cfg.shared.workers new.row).requests) := rowOf_register_self hSlot now cfg.shared
      refine ⟨?_, fun j l hj hSame => ?_⟩
      · have hNew := describes_iff.mp (h i new (Config.put_phase_self cfg i _ _))
        exact congrArg (fun t => t.2.2) (hRow.symm.trans hNew)
      · have hji : j ≠ i := by
          rintro rfl
          rw [hPhase] at hj
          cases hj
        have hOld := describes_iff.mp (h j l ((Config.put_phase_of_ne cfg _ _ hji).trans hj))
        rw [show l.row = new.row from hSame] at hOld
        exact (hOthers j l hj).2 (congrArg Prod.fst (hRow.symm.trans hOld)).symm
    · cases hStep
  | tick | account | exit => trivial

end Steps

/-- As long as every worker starts with a fresh row, the row of each live worker
names it, is active and counts the requests that it has accounted. A start
with another row breaks this at once. -/
theorem rows_describe_workers {conf : MainConf w} {cfg : Config ι (Shctx w) (Option (Live w))}
    (h : Reaches (step crc32 shpool) (fun cfg label => Distinct cfg label ∧ FreshRow cfg label)
      (start conf) cfg) :
    Described cfg ∧ ∀ label cfg', Distinct cfg label → step crc32 shpool cfg label = some cfg' →
      (Described cfg' ↔ FreshRow cfg label) := by
  have hStart : Rows (start conf : Config ι (Shctx w) (Option (Live w))) := by
    constructor
    · intro i l hPhase
      cases hPhase
    · intro i l hPhase
      cases hPhase
    · intro i j l l' hPhase
      cases hPhase
  have hRows : Rows cfg := h.invariant hStart fun _ _ _ hInv hGuard hStep =>
    hInv.next crc32 shpool hGuard.1 hGuard.2 hStep
  refine ⟨hRows.described, fun label cfg' hDistinct hStep => ⟨?_, fun hFresh => ?_⟩⟩
  · exact freshRow_of_described crc32 shpool hDistinct hStep
  · exact (hRows.next crc32 shpool hDistinct hFresh hStep).described

section Reuse

instance [Fintype ι] (cfg : Config ι (Shctx w) (Option (Live w))) :
    ∀ label, Decidable (Distinct cfg label)
  | .spawn .. => inferInstanceAs (Decidable (_ ∧ _))
  | .tick .. | .account .. | .exit .. => inferInstanceAs (Decidable True)

instance [Fintype ι] (cfg : Config ι (Shctx w) (Option (Live w))) :
    ∀ label, Decidable (FreshRow cfg label)
  | .spawn .. => inferInstanceAs (Decidable (_ ∧ _))
  | .tick .. | .account .. | .exit .. => inferInstanceAs (Decidable True)

def pageRequest : Request 64 where
  status := 200
  contentLength := 10
  method := 2
  startSec := 1
  startMsec := 0
  ssl := false
  connectionRequests := 1
  uri := ascii "/"
  userAgent := none
  upstreamStates := []

/-- One worker accounts a request and a second one starts beside it. -/
def twoWorkers : List (Label Bool 64) :=
  [.spawn false 0 4000 conf64 1, .account false pageRequest ⟨2, 0⟩, .spawn true 1 4001 conf64 3,
    .tick false 4 none id]

theorem rows_describe_two_workers : ∃ cfg : Config Bool (Shctx 64) (Option (Live 64)),
    run (step (fun _ => 0) true) (fun cfg label => Distinct cfg label ∧ FreshRow cfg label)
      (start conf64) twoWorkers = some cfg ∧ Described cfg := by
  have hRun : (run (step (fun _ => 0) true) (fun cfg label => Distinct cfg label ∧ FreshRow cfg label)
      (start conf64) twoWorkers).isSome = true := by
    decide +kernel
  obtain ⟨cfg, hCfg⟩ := Option.isSome_iff_exists.mp hRun
  exact ⟨cfg, hCfg, (rows_describe_workers (fun _ => 0) true (.of_run hCfg)).1⟩

/-- The first worker exits, and a new one is started in its slot. -/
def reusedSlot : List (Label Bool 64) :=
  [.spawn false 0 4000 conf64 1, .account false pageRequest ⟨2, 0⟩, .exit false 3,
    .spawn true 0 4001 conf64 4]

theorem reused_slot_keeps_count : ∃ cfg : Config Bool (Shctx 64) (Option (Live 64)),
    Reaches (step (fun _ => 0) true) Distinct (start conf64) cfg ∧
      (cfg.phase true).map Live.accounted = some 0 ∧
      (cfg.shared.workers 0).pid = 4001 ∧ (cfg.shared.workers 0).requests = 1 ∧ ¬ Described cfg := by
  have hRun : (run (step (fun _ => 0) true) Distinct (start conf64) reusedSlot).map (fun cfg =>
      ((cfg.phase true).map fun l => (l.row, l.accounted), (cfg.shared.workers 0).pid,
        (cfg.shared.workers 0).requests)) = some (some (0, 0), 4001, 1) := by
    decide +kernel
  obtain ⟨cfg, hCfg, hEnd⟩ := Option.map_eq_some_iff.mp hRun
  simp only [Prod.mk.injEq] at hEnd
  obtain ⟨hPhase, hPid, hRequests⟩ := hEnd
  obtain ⟨l, hLive, hFields⟩ := Option.map_eq_some_iff.mp hPhase
  obtain ⟨hRow, hNone⟩ := Prod.mk.inj hFields
  refine ⟨cfg, .of_run hCfg, by rw [hLive, Option.map_some, hNone], hPid, hRequests, fun h => ?_⟩
  have hCount := (h true l hLive).requests
  rw [hRow, hNone, hRequests] at hCount
  revert hCount
  decide

end Reuse

end HttpMonitoring.WorkerRows
