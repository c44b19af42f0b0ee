import HttpMonitoring.History
import HttpMonitoring.Library.GuardedProgram

/-!
# The accesses of `collect_history`

`collect_history` as a program of single accesses to the zone. The cells of the
program are the `prev_*` and `ewma_*` words that it reads and writes. Filling
in the sample is one access, no guarded word is among what it touches.
-/

namespace HttpMonitoring.HistoryAccesses

open Library.GuardedProgram Accounting Zone History

variable {w : Nat}

inductive Cell
  | prevReqTotal
  | prevRespTotal
  | prevNetRx
  | prevNetTx
  | prevDiskRead
  | prevDiskWrite
  | prevCollectMsec
  | prevHistoryMsec
  | ewmaRpsMilli
  | ewmaRespMilli
deriving DecidableEq

def cells (sh : Shctx w) : Cell → BitVec w
  | .prevReqTotal => sh.prevReqTotal
  | .prevRespTotal => sh.prevRespTotal
  | .prevNetRx => sh.prevNetRx
  | .prevNetTx => sh.prevNetTx
  | .prevDiskRead => sh.prevDiskRead
  | .prevDiskWrite => sh.prevDiskWrite
  | .prevCollectMsec => sh.prevCollectMsec
  | .prevHistoryMsec => sh.prevHistoryMsec
  | .ewmaRpsMilli => sh.ewmaRpsMilli
  | .ewmaRespMilli => sh.ewmaRespMilli

def setCell (c : Cell) (x : BitVec w) (sh : Shctx w) : Shctx w :=
  match c with
  | .prevReqTotal => { sh with prevReqTotal := x }
  | .prevRespTotal => { sh with prevRespTotal := x }
  | .prevNetRx => { sh with prevNetRx := x }
  | .prevNetTx => { sh with prevNetTx := x }
  | .prevDiskRead => { sh with prevDiskRead := x }
  | .prevDiskWrite => { sh with prevDiskWrite := x }
  | .prevCollectMsec => { sh with prevCollectMsec := x }
  | .prevHistoryMsec => { sh with prevHistoryMsec := x }
  | .ewmaRpsMilli => { sh with ewmaRpsMilli := x }
  | .ewmaRespMilli => { sh with ewmaRespMilli := x }

/-- The lock and the generation are no cells of the program. -/
def zoneMemory (w : Nat) : Memory (Shctx w) Cell (BitVec w) (BitVec w × BitVec w) where
  get := cells
  set := setCell
  frame sh := (sh.collectorLock, sh.generation)
  get_set c x sh := by
    funext d
    cases c <;> cases d <;> rfl
  frame_set c x sh := by
    cases c <;> rfl

abbrev Change (w : Nat) := Outside (zoneMemory w)

abbrev Accesses (w : Nat) := Program (zoneMemory w)

structure Readings (w : Nat) where
  req : BitVec w
  resp : BitVec w
  netRx : BitVec w
  netTx : BitVec w
  diskRead : BitVec w
  diskWrite : BitVec w

structure Rates (w : Nat) where
  dt : BitVec w
  rps : BitVec w
  resp : BitVec w
  netRx : BitVec w
  netTx : BitVec w
  diskRead : BitVec w
  diskWrite : BitVec w

/-- What a call has read, computed and put into its sample. -/
structure Figures (w : Nat) where
  readings : Readings w
  rates : Rates w
  averageRps : BitVec w
  averageResp : BitVec w

section Parts

variable {ρ : Type*}

def plain (read : Shctx w → BitVec w) (next : BitVec w → Accesses w ρ) : Accesses w ρ :=
  .input read (.nothing _) next

def sumNetworkCells (tx : Bool) (next : BitVec w → Accesses w ρ) : Accesses w ρ :=
  plain (fun sh => sh.ifaceCount) fun count =>
    .sum ((List.range (min count.toNat ifacesMax)).map fun i (sh : Shctx w) =>
      if tx then (sh.ifaces i).txBytes else (sh.ifaces i).rxBytes) 0 next

def sumDiskCells (write : Bool) (next : BitVec w → Accesses w ρ) : Accesses w ρ :=
  plain (fun sh => sh.diskCount) fun count =>
    .sum ((List.range (min count.toNat disksMax)).map fun i (sh : Shctx w) =>
      if write then (sh.disks i).writeBytes else (sh.disks i).readBytes) 0 next

def readAll (next : Readings w → Accesses w ρ) : Accesses w ρ :=
  plain (fun sh => sh.requests.total) fun req =>
  plain (fun sh => sh.requests.responses) fun resp =>
  sumNetworkCells false fun netRx =>
  sumNetworkCells true fun netTx =>
  sumDiskCells false fun diskRead =>
  sumDiskCells true fun diskWrite => next ⟨req, resp, netRx, netTx, diskRead, diskWrite⟩

def elapsedSince (conf : MainConf w) (now prev : BitVec w) : BitVec w :=
  let dt := if prev = 0 ∨ now.toNat ≤ prev.toNat then conf.refreshInterval else now - prev
  if dt = 0 then 1 else dt

def loadRates (conf : MainConf w) (now : BitVec w) (r : Readings w) (next : Rates w → Accesses w ρ) :
    Accesses w ρ :=
  .load .prevCollectMsec fun prevMsec =>
  let dt := elapsedSince conf now prevMsec
  .load .prevReqTotal fun prevReq =>
  .load .prevRespTotal fun prevResp =>
  .load .prevNetRx fun prevNetRx =>
  .load .prevNetTx fun prevNetTx =>
  .load .prevDiskRead fun prevDiskRead =>
  .load .prevDiskWrite fun prevDiskWrite =>
  next ⟨dt, rate 1000000 r.req prevReq dt, rate 1000000 r.resp prevResp dt,
    rate 1000 r.netRx prevNetRx dt, rate 1000 r.netTx prevNetTx dt,
    rate 1000 r.diskRead prevDiskRead dt, rate 1000 r.diskWrite prevDiskWrite dt⟩

def storeAverages (rps resp : BitVec w) (next : Accesses w ρ) : Accesses w ρ :=
  .load .ewmaRpsMilli fun first =>
  if first = 0 then .store .ewmaRpsMilli rps (.store .ewmaRespMilli resp next)
  else
    .load .ewmaRpsMilli fun averageRps => .store .ewmaRpsMilli (ewma averageRps rps) <|
    .load .ewmaRespMilli fun averageResp => .store .ewmaRespMilli (ewma averageResp resp) next

def sample (clock : Clock w) (f : Figures w) (sh : Shctx w) : HistorySample w where
  timestamp := clock.sec
  msec := clock.msec
  cpuUsage := milli sh.system.usageMilli
  load1 := milli sh.system.load1Milli
  load5 := milli sh.system.load5Milli
  load15 := milli sh.system.load15Milli
  memoryUsedPct := usedPct sh.system.memTotal sh.system.memAvailable
  swapUsedPct := usedPct sh.system.swapTotal sh.system.swapFree
  requestsPerSec := milli f.averageRps
  responsesPerSec := milli f.averageResp
  networkRxPerSec := f.rates.netRx.toNat
  networkTxPerSec := f.rates.netTx.toNat
  diskReadPerSec := f.rates.diskRead.toNat
  diskWritePerSec := f.rates.diskWrite.toNat
  latencyP95 := roundedPercentile sh.requests 95
  requestsTotal := f.readings.req
  status4xx := sh.requests.status4xx
  status5xx := sh.requests.status5xx

def nextWrite : Change w := ⟨fun sh => { sh with historyWrite := sh.historyWrite + 1 },
  fun _ => rfl, fun _ => rfl⟩

def fillSample (clock : Clock w) (f : Figures w) (pos : Nat) : Change w :=
  ⟨fun sh => { sh with history := Function.update sh.history pos (sample clock f sh) },
    fun _ => rfl, fun _ => rfl⟩

def countSample : Change w := ⟨fun sh => { sh with historyCount := sh.historyCount + 1 },
  fun _ => rfl, fun _ => rfl⟩

def ringCapacity (capacity : BitVec w) : Nat :=
  if capacity.toNat = 0 ∨ historyMax < capacity.toNat then historyMax else capacity.toNat

def push (clock : Clock w) (r : Readings w) (rates : Rates w) (next : Figures w → Accesses w ρ) :
    Accesses w ρ :=
  plain (fun sh => sh.historyCapacity) fun capacity =>
  .input (fun sh => sh.historyWrite) nextWrite fun pos =>
  .load .ewmaRpsMilli fun averageRps =>
  .load .ewmaRespMilli fun averageResp =>
  let f : Figures w := ⟨r, rates, averageRps, averageResp⟩
  .write (fillSample clock f (pos.toNat % ringCapacity capacity)) <|
  plain (fun sh => sh.historyCount) fun count =>
  if count.toNat < ringCapacity capacity then .write countSample (next f) else next f

def storePrevious (now : BitVec w) (r : Readings w) (next : Accesses w ρ) : Accesses w ρ :=
  .store .prevReqTotal r.req <|
  .store .prevRespTotal r.resp <|
  .store .prevNetRx r.netRx <|
  .store .prevNetTx r.netTx <|
  .store .prevDiskRead r.diskRead <|
  .store .prevDiskWrite r.diskWrite <|
  .store .prevCollectMsec now <|
  .store .prevHistoryMsec now next

end Parts

def recordSample (conf : MainConf w) (clock : Clock w) : Accesses w (Option (Figures w)) :=
  readAll fun r =>
  loadRates conf (nowMsec clock) r fun rates =>
  storeAverages rates.rps rates.resp <|
  push clock r rates fun f =>
  storePrevious (nowMsec clock) r (.ret (some f))

/-- The accesses of a call, which returns nothing when it comes too early. -/
def collectHistory (conf : MainConf w) (clock : Clock w) : Accesses w (Option (Figures w)) :=
  .load .prevHistoryMsec fun first =>
  if first = 0 then recordSample conf clock
  else .load .prevHistoryMsec fun prev =>
    if (nowMsec clock - prev).toNat < conf.resolution.toNat then .ret none else recordSample conf clock

section Computation

variable (conf : MainConf w) (clock : Clock w) (base : Cell → BitVec w)

def Early : Prop :=
  base .prevHistoryMsec ≠ 0 ∧ (nowMsec clock - base .prevHistoryMsec).toNat < conf.resolution.toNat

def ratesFrom (r : Readings w) : Rates w :=
  let dt := elapsedSince conf (nowMsec clock) (base .prevCollectMsec)
  { dt := dt
    rps := rate 1000000 r.req (base .prevReqTotal) dt
    resp := rate 1000000 r.resp (base .prevRespTotal) dt
    netRx := rate 1000 r.netRx (base .prevNetRx) dt
    netTx := rate 1000 r.netTx (base .prevNetTx) dt
    diskRead := rate 1000 r.diskRead (base .prevDiskRead) dt
    diskWrite := rate 1000 r.diskWrite (base .prevDiskWrite) dt }

def figuresFrom (r : Readings w) : Figures w :=
  let rates := ratesFrom conf clock base r
  { readings := r
    rates := rates
    averageRps := if base .ewmaRpsMilli = 0 then rates.rps else ewma (base .ewmaRpsMilli) rates.rps
    averageResp :=
      if base .ewmaRpsMilli = 0 then rates.resp else ewma (base .ewmaRespMilli) rates.resp }

def cellsAfter (f : Figures w) : Cell → BitVec w
  | .prevReqTotal => f.readings.req
  | .prevRespTotal => f.readings.resp
  | .prevNetRx => f.readings.netRx
  | .prevNetTx => f.readings.netTx
  | .prevDiskRead => f.readings.diskRead
  | .prevDiskWrite => f.readings.diskWrite
  | .prevCollectMsec => nowMsec clock
  | .prevHistoryMsec => nowMsec clock
  | .ewmaRpsMilli => f.averageRps
  | .ewmaRespMilli => f.averageResp

/-- A call that comes too early leaves the cells as they are. Any other one
computes its figures from them and stores its readings and averages. -/
def Computes (left : Cell → BitVec w) : Option (Figures w) → Prop
  | none => Early conf clock base ∧ left = base
  | some f => ¬ Early conf clock base ∧ f = figuresFrom conf clock base f.readings ∧
      left = cellsAfter clock f

end Computation

section Yields

variable {ρ : Type*} {conf : MainConf w} {clock : Clock w} {base left : Cell → BitVec w} {result : ρ}

theorem yields_readAll {next : Readings w → Accesses w ρ}
    (h : (readAll next).Yields base left result) : ∃ r, (next r).Yields base left result := by
  obtain ⟨req, resp, _, hNetRx⟩ := h
  obtain ⟨netRx, _, hNetTx⟩ := Program.yields_sum hNetRx
  obtain ⟨netTx, _, hDiskRead⟩ := Program.yields_sum hNetTx
  obtain ⟨diskRead, _, hDiskWrite⟩ := Program.yields_sum hDiskRead
  obtain ⟨diskWrite, hNext⟩ := Program.yields_sum hDiskWrite
  exact ⟨_, hNext⟩

theorem yields_loadRates {r : Readings w} {next : Rates w → Accesses w ρ}
    (h : (loadRates conf (nowMsec clock) r next).Yields base left result) :
    (next (ratesFrom conf clock base r)).Yields base left result := h

def averagedCells (base : Cell → BitVec w) (rps resp : BitVec w) : Cell → BitVec w :=
  Function.update (Function.update base .ewmaRpsMilli
      (if base .ewmaRpsMilli = 0 then rps else ewma (base .ewmaRpsMilli) rps)) .ewmaRespMilli
    (if base .ewmaRpsMilli = 0 then resp else ewma (base .ewmaRespMilli) resp)

theorem yields_storeAverages {rps resp : BitVec w} {next : Accesses w ρ}
    (h : (storeAverages rps resp next).Yields base left result) :
    next.Yields (averagedCells base rps resp) left result := by
  rw [storeAverages, Program.Yields] at h
  split at h
  · rename_i hZero
    rw [averagedCells, if_pos hZero, if_pos hZero]
    exact h
  · rename_i hNonzero
    rw [averagedCells, if_neg hNonzero, if_neg hNonzero]
    exact h

theorem yields_push {r : Readings w} {rates : Rates w} {next : Figures w → Accesses w ρ}
    (h : (push clock r rates next).Yields base left result) :
    (next ⟨r, rates, base .ewmaRpsMilli, base .ewmaRespMilli⟩).Yields base left result := by
  obtain ⟨capacity, pos, count, hNext⟩ := h
  beta_reduce at hNext
  split at hNext
  · exact hNext
  · exact hNext

theorem yields_recordSample {outcome : Option (Figures w)} (hDue : ¬ Early conf clock base)
    (h : (recordSample conf clock).Yields base left outcome) :
    Computes conf clock base left outcome := by
  obtain ⟨r, hRates⟩ := yields_readAll h
  obtain ⟨hLeft, rfl⟩ := yields_push (yields_storeAverages (yields_loadRates hRates))
  refine ⟨hDue, rfl, hLeft.trans ?_⟩
  funext c
  cases c <;> rfl

/-- Whatever a call reads outside of its cells, it computes its figures from
the cells that it found. -/
theorem computes_of_yields {outcome : Option (Figures w)}
    (h : (collectHistory conf clock).Yields base left outcome) :
    Computes conf clock base left outcome := by
  rw [collectHistory, Program.Yields] at h
  split at h
  · rename_i hZero
    exact yields_recordSample (fun hEarly => hEarly.1 hZero) h
  · rename_i hNonzero
    rw [Program.Yields] at h
    split at h
    · rename_i hSoon
      obtain ⟨hLeft, rfl⟩ := h
      exact ⟨⟨hNonzero, hSoon⟩, hLeft⟩
    · rename_i hLate
      exact yields_recordSample (fun hEarly => hLate hEarly.2) h

end Yields

section Alone

variable {ρ : Type*}

theorem alone_sumCells (n : Nat) (cell : Nat → Shctx w → BitVec w) (next : BitVec w → Accesses w ρ)
    (sh : Shctx w) : (Program.sum ((List.range n).map cell) 0 next).alone sh =
      (next ((List.range n).map fun i => cell i sh).sum).alone sh := by
  rw [Program.alone_sum, List.foldl_map, List.sum_eq_foldl, List.foldl_map]

theorem alone_sumNetworkCells (tx : Bool) (next : BitVec w → Accesses w ρ) (sh : Shctx w) :
    (sumNetworkCells tx next).alone sh = (next (sumNetwork sh tx)).alone sh :=
  alone_sumCells _ _ next sh

theorem alone_sumDiskCells (write : Bool) (next : BitVec w → Accesses w ρ) (sh : Shctx w) :
    (sumDiskCells write next).alone sh = (next (sumDisk sh write)).alone sh :=
  alone_sumCells _ _ next sh

def readingsOf (sh : Shctx w) : Readings w :=
  ⟨sh.requests.total, sh.requests.responses, sumNetwork sh false, sumNetwork sh true,
    sumDisk sh false, sumDisk sh true⟩

theorem alone_readAll (next : Readings w → Accesses w ρ) (sh : Shctx w) :
    (readAll next).alone sh = (next (readingsOf sh)).alone sh := by
  have hDisk : ∀ req resp netRx netTx, (sumDiskCells false fun diskRead =>
      sumDiskCells true fun diskWrite =>
        next ⟨req, resp, netRx, netTx, diskRead, diskWrite⟩).alone sh =
      (next ⟨req, resp, netRx, netTx, sumDisk sh false, sumDisk sh true⟩).alone sh := by
    intro req resp netRx netTx
    rw [alone_sumDiskCells, alone_sumDiskCells]
  calc
    (readAll next).alone sh
        = (sumNetworkCells false fun netRx => sumNetworkCells true fun netTx =>
            sumDiskCells false fun diskRead => sumDiskCells true fun diskWrite =>
              next ⟨sh.requests.total, sh.requests.responses, netRx, netTx, diskRead,
                diskWrite⟩).alone sh := rfl
    _ = (next (readingsOf sh)).alone sh := by
          rw [alone_sumNetworkCells, alone_sumNetworkCells, hDisk]
          rfl

theorem alone_storeAverages (rps resp : BitVec w) (next : Accesses w ρ) (sh : Shctx w) :
    (storeAverages rps resp next).alone sh = next.alone (withAverages rps resp sh) := by
  rw [storeAverages, Program.alone, withAverages]
  split
  · rename_i hFirst
    have hZero : sh.ewmaRpsMilli = 0 := hFirst
    rw [if_pos hZero]
    rfl
  · rename_i hFirst
    have hNonzero : ¬ sh.ewmaRpsMilli = 0 := hFirst
    rw [if_neg hNonzero]
    rfl

theorem alone_push (clock : Clock w) (r : Readings w) (rates : Rates w)
    (next : Figures w → Accesses w ρ) (sh : Shctx w) :
    (push clock r rates next).alone sh = (next ⟨r, rates, sh.ewmaRpsMilli, sh.ewmaRespMilli⟩).alone
      (pushSample (sample clock ⟨r, rates, sh.ewmaRpsMilli, sh.ewmaRespMilli⟩ sh) sh) := by
  by_cases hRoom : sh.historyCount.toNat < writerCapacity sh
  · have hCounted : sh.historyCount.toNat < ringCapacity sh.historyCapacity := hRoom
    simp only [push, plain, Program.alone, Outside.nothing, fillSample, nextWrite, id, hCounted, if_true,
      pushSample, hRoom]
    rfl
  · have hFull : ¬ sh.historyCount.toNat < ringCapacity sh.historyCapacity := hRoom
    simp only [push, plain, Program.alone, Outside.nothing, fillSample, nextWrite, id, hFull, if_false,
      pushSample, hRoom]
    rfl

theorem alone_storePrevious (clock : Clock w) (r : ρ) (old sh : Shctx w) :
    (storePrevious (nowMsec clock) (readingsOf old) (.ret r)).alone sh =
      (withPrevious (nowMsec clock) old sh, r) := by
  simp only [storePrevious, Program.alone, zoneMemory, setCell, withPrevious, readingsOf]

theorem alone_recordSample (conf : MainConf w) (clock : Clock w) (sh : Shctx w) :
    ((recordSample conf clock).alone sh).1 = withPrevious (nowMsec clock) sh
      (pushSample (recordedSample conf clock sh) (averaged conf clock sh)) := by
  have hRates : ∀ next : Rates w → Accesses w (Option (Figures w)),
      (loadRates conf (nowMsec clock) (readingsOf sh) next).alone sh =
        (next (ratesFrom conf clock (cells sh) (readingsOf sh))).alone sh := fun _ => rfl
  have hAveraged : withAverages (ratesFrom conf clock (cells sh) (readingsOf sh)).rps
      (ratesFrom conf clock (cells sh) (readingsOf sh)).resp sh = averaged conf clock sh := rfl
  have hSample : sample clock ⟨readingsOf sh, ratesFrom conf clock (cells sh) (readingsOf sh),
      (averaged conf clock sh).ewmaRpsMilli, (averaged conf clock sh).ewmaRespMilli⟩
        (averaged conf clock sh) = recordedSample conf clock sh := by
    simp only [sample, recordedSample, sampleOf]
    rfl
  rw [recordSample, alone_readAll, hRates, alone_storeAverages, alone_push, hAveraged, hSample,
    alone_storePrevious]

/-- A call in a worker that runs alone is the call of the history ring. -/
theorem alone_collectHistory (conf : MainConf w) (clock : Clock w) (sh : Shctx w) :
    ((collectHistory conf clock).alone sh).1 = History.collectHistory conf clock sh := by
  rw [History.collectHistory]
  by_cases hZero : sh.prevHistoryMsec = 0
  · have hFirst : (collectHistory conf clock).alone sh = (recordSample conf clock).alone sh := by
      rw [collectHistory, Program.alone]
      have hFirst : (zoneMemory w).get sh .prevHistoryMsec = 0 := hZero
      rw [if_pos hFirst]
    rw [if_neg fun hEarly => hEarly.1 hZero, hFirst, alone_recordSample]
  · have hSecond : (collectHistory conf clock).alone sh =
        (if (nowMsec clock - sh.prevHistoryMsec).toNat < conf.resolution.toNat then .ret none
          else recordSample conf clock : Accesses w (Option (Figures w))).alone sh := by
      rw [collectHistory, Program.alone]
      have hNonzero : ¬ (zoneMemory w).get sh .prevHistoryMsec = 0 := hZero
      rw [if_neg hNonzero]
      rfl
    rw [hSecond]
    by_cases hSoon : (nowMsec clock - sh.prevHistoryMsec).toNat < conf.resolution.toNat
    · rw [if_pos hSoon, if_pos ⟨hZero, hSoon⟩]
      rfl
    · rw [if_neg hSoon, if_neg fun hEarly => hSoon hEarly.2, alone_recordSample]

/-- The call of the history ring computes its figures from the cells of the zone. -/
theorem collectHistory_computes (conf : MainConf w) (clock : Clock w) (sh : Shctx w) :
    Computes conf clock (cells sh) (cells (History.collectHistory conf clock sh))
      ((collectHistory conf clock).alone sh).2 := by
  rw [← alone_collectHistory]
  exact computes_of_yields ((collectHistory conf clock).yields_alone sh)

end Alone

end HttpMonitoring.HistoryAccesses
