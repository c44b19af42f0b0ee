import HttpMonitoring.Accounting
import HttpMonitoring.Library.Doubles
import HttpMonitoring.Zone

/-!
# The history ring

`collect_history` records a sample in the ring of the zone, `json_history`
reads the samples back. The arithmetic on counters is that of machine words;
a `double` is the rational number the source computes, and of the rank of a
percentile, which is cut off to a counter, each operation is rounded.
-/

namespace HttpMonitoring.History

open Accounting Zone

variable {w : Nat}

def bucketTotal (cells : Nat → BitVec w) (n : Nat) : BitVec w := ((List.range n).map cells).sum

/-- The bound of the first bucket that reaches the target. -/
def percentileScan (cells : Nat → BitVec w) (target : BitVec w) : List Nat → Nat → BitVec w → ℚ
  | [], _, _ => 30000
  | bound :: bounds, i, count =>
    if target.toNat ≤ (count + cells i).toNat then bound
    else percentileScan cells target bounds (i + 1) (count + cells i)

/-- With the product of the rank taken as exact. In doubles the answer is the same
as long as there are fewer than 2^46 latencies, see `Percentiles.doublePercentile_eq`. -/
def percentile (m : RequestMetric w) (p : ℚ) : ℚ :=
  let total := bucketTotal m.latencyBucket latencyBuckets
  if total = 0 then 0
  else
    let target := BitVec.ofNat w ⌊(total.toNat : ℚ) * p / 100⌋₊
    percentileScan m.latencyBucket (if target = 0 then 1 else target) latencyBounds 0 0

section Doubles

variable (D : Library.Doubles.Rounding)

/-- `(double) total * percentile / 100.0`, each result rounded. -/
def doubleRank (total : BitVec w) (p : ℚ) : ℚ := D.round (D.round (D.round total.toNat * p) / 100)

def doubleTarget (total : BitVec w) (p : ℚ) : BitVec w :=
  let target := BitVec.ofNat w ⌊doubleRank D total p⌋₊
  if target = 0 then 1 else target

/-- `percentile` in the arithmetic of doubles. -/
def doublePercentile (m : RequestMetric w) (p : ℚ) : ℚ :=
  let total := bucketTotal m.latencyBucket latencyBuckets
  if total = 0 then 0 else percentileScan m.latencyBucket (doubleTarget D total p) latencyBounds 0 0

end Doubles

/-- What the figures of the zone are computed with. -/
def roundedPercentile (m : RequestMetric w) (p : ℚ) : ℚ := doublePercentile Library.Doubles.toNearest m p

def sumNetwork (sh : Shctx w) (tx : Bool) : BitVec w :=
  ((List.range (min sh.ifaceCount.toNat ifacesMax)).map fun i =>
    if tx then (sh.ifaces i).txBytes else (sh.ifaces i).rxBytes).sum

def sumDisk (sh : Shctx w) (write : Bool) : BitVec w :=
  ((List.range (min sh.diskCount.toNat disksMax)).map fun i =>
    if write then (sh.disks i).writeBytes else (sh.disks i).readBytes).sum

def delta (now prev : BitVec w) : BitVec w := if prev.toNat ≤ now.toNat then now - prev else 0

def nowMsec (clock : Clock w) : BitVec w := BitVec.ofInt w (clock.sec * 1000) + clock.msec

/-- The time the rates of a pass refer to. -/
def elapsed (conf : MainConf w) (now : BitVec w) (sh : Shctx w) : BitVec w :=
  let dt := if sh.prevCollectMsec = 0 ∨ now.toNat ≤ sh.prevCollectMsec.toNat then conf.refreshInterval
    else now - sh.prevCollectMsec
  if dt = 0 then 1 else dt

def rate (scale : Nat) (now prev dt : BitVec w) : BitVec w := delta now prev * BitVec.ofNat w scale / dt

def ewma (average value : BitVec w) : BitVec w :=
  (average * BitVec.ofNat w 7 + value * BitVec.ofNat w 3) / BitVec.ofNat w 10

def milli (x : BitVec w) : ℚ := x.toNat / 1000

def usedPct (total available : BitVec w) : ℚ :=
  if 0 < total.toNat then (total - available).toNat * 100 / total.toNat else 0

def withAverages (rps resp : BitVec w) (sh : Shctx w) : Shctx w :=
  if sh.ewmaRpsMilli = 0 then { sh with ewmaRpsMilli := rps, ewmaRespMilli := resp }
  else { sh with ewmaRpsMilli := ewma sh.ewmaRpsMilli rps, ewmaRespMilli := ewma sh.ewmaRespMilli resp }

def sampleOf (conf : MainConf w) (clock : Clock w) (old sh : Shctx w) : HistorySample w :=
  let dt := elapsed conf (nowMsec clock) old
  { timestamp := clock.sec
    msec := clock.msec
    cpuUsage := milli sh.system.usageMilli
    load1 := milli sh.system.load1Milli
    load5 := milli sh.system.load5Milli
    load15 := milli sh.system.load15Milli
    memoryUsedPct := usedPct sh.system.memTotal sh.system.memAvailable
    swapUsedPct := usedPct sh.system.swapTotal sh.system.swapFree
    requestsPerSec := milli sh.ewmaRpsMilli
    responsesPerSec := milli sh.ewmaRespMilli
    networkRxPerSec := (rate 1000 (sumNetwork old false) old.prevNetRx dt).toNat
    networkTxPerSec := (rate 1000 (sumNetwork old true) old.prevNetTx dt).toNat
    diskReadPerSec := (rate 1000 (sumDisk old false) old.prevDiskRead dt).toNat
    diskWritePerSec := (rate 1000 (sumDisk old true) old.prevDiskWrite dt).toNat
    latencyP95 := roundedPercentile sh.requests 95
    requestsTotal := old.requests.total
    status4xx := sh.requests.status4xx
    status5xx := sh.requests.status5xx }

def writerCapacity (sh : Shctx w) : Nat :=
  if sh.historyCapacity.toNat = 0 ∨ historyMax < sh.historyCapacity.toNat then historyMax
  else sh.historyCapacity.toNat

/-- The part of a pass that touches the ring. -/
def pushSample (sample : HistorySample w) (sh : Shctx w) : Shctx w :=
  let capacity := writerCapacity sh
  { sh with
    historyWrite := sh.historyWrite + 1
    history := Function.update sh.history (sh.historyWrite.toNat % capacity) sample
    historyCount := if sh.historyCount.toNat < capacity then sh.historyCount + 1 else sh.historyCount }

def withPrevious (now : BitVec w) (old sh : Shctx w) : Shctx w :=
  { sh with
    prevReqTotal := old.requests.total
    prevRespTotal := old.requests.responses
    prevNetRx := sumNetwork old false
    prevNetTx := sumNetwork old true
    prevDiskRead := sumDisk old false
    prevDiskWrite := sumDisk old true
    prevCollectMsec := now
    prevHistoryMsec := now }

def TooEarly (conf : MainConf w) (now : BitVec w) (sh : Shctx w) : Prop :=
  sh.prevHistoryMsec ≠ 0 ∧ (now - sh.prevHistoryMsec).toNat < conf.resolution.toNat

instance (conf : MainConf w) (now : BitVec w) (sh : Shctx w) : Decidable (TooEarly conf now sh) :=
  inferInstanceAs (Decidable (_ ∧ _))

def averaged (conf : MainConf w) (clock : Clock w) (sh : Shctx w) : Shctx w :=
  let dt := elapsed conf (nowMsec clock) sh
  withAverages (rate 1000000 sh.requests.total sh.prevReqTotal dt)
    (rate 1000000 sh.requests.responses sh.prevRespTotal dt) sh

def recordedSample (conf : MainConf w) (clock : Clock w) (sh : Shctx w) : HistorySample w :=
  sampleOf conf clock sh (averaged conf clock sh)

def collectHistory (conf : MainConf w) (clock : Clock w) (sh : Shctx w) : Shctx w :=
  if TooEarly conf (nowMsec clock) sh then sh
  else withPrevious (nowMsec clock) sh
    (pushSample (recordedSample conf clock sh) (averaged conf clock sh))

def readerCount (sh : Shctx w) : Nat := min sh.historyCount.toNat historyMax

def readerCapacity (sh : Shctx w) : Nat := min sh.historyCapacity.toNat historyMax

/-- The slot of the `i`-th sample, in the word arithmetic of the reader. -/
def historySlot (sh : Shctx w) (i : Nat) : Nat :=
  (sh.historyWrite + BitVec.ofNat w (readerCapacity sh) - BitVec.ofNat w (readerCount sh) +
    BitVec.ofNat w i).toNat % readerCapacity sh

/-- The samples in the order of `json_history`. -/
def historySamples (sh : Shctx w) : List (HistorySample w) :=
  if readerCapacity sh = 0 then []
  else (List.range (readerCount sh)).map fun i => sh.history (historySlot sh i)

structure RingCells (w : Nat) where
  write : BitVec w
  count : BitVec w
  capacity : BitVec w
  samples : Nat → HistorySample w

def ringCells (sh : Shctx w) : RingCells w :=
  ⟨sh.historyWrite, sh.historyCount, sh.historyCapacity, sh.history⟩

def RingCells.push (sample : HistorySample w) (r : RingCells w) (capacity : Nat) : RingCells w where
  write := r.write + 1
  count := if r.count.toNat < capacity then r.count + 1 else r.count
  capacity := r.capacity
  samples := Function.update r.samples (r.write.toNat % capacity) sample

@[simp] theorem ringCells_withAverages (rps resp : BitVec w) (sh : Shctx w) :
    ringCells (withAverages rps resp sh) = ringCells sh := by
  rw [withAverages]
  split <;> rfl

/-- A pass that is not too early pushes one sample and leaves the ring as it
was otherwise. -/
theorem ringCells_collectHistory {conf : MainConf w} {clock : Clock w} {sh : Shctx w}
    (h : ¬ TooEarly conf (nowMsec clock) sh) :
    ringCells (collectHistory conf clock sh) =
      (ringCells sh).push (recordedSample conf clock sh) (writerCapacity sh) := by
  have hSame : ringCells (averaged conf clock sh) = ringCells sh := ringCells_withAverages _ _ sh
  have hWrite : (averaged conf clock sh).historyWrite = sh.historyWrite :=
    congrArg RingCells.write hSame
  have hCount : (averaged conf clock sh).historyCount = sh.historyCount :=
    congrArg RingCells.count hSame
  have hCapacity : (averaged conf clock sh).historyCapacity = sh.historyCapacity :=
    congrArg RingCells.capacity hSame
  have hHistory : (averaged conf clock sh).history = sh.history := congrArg RingCells.samples hSame
  have hWriter : writerCapacity (averaged conf clock sh) = writerCapacity sh := by
    rw [writerCapacity, hCapacity, writerCapacity]
  rw [collectHistory, if_neg h]
  simp only [ringCells, withPrevious, pushSample, RingCells.push, hWriter, hWrite, hCount,
    hCapacity, hHistory]
  rfl

end HttpMonitoring.History
