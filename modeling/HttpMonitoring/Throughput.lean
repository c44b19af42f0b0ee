import HttpMonitoring.Collection

/-!
# Throughput and the traffic that was seen

A rate of network or disk traffic is computed from the growth of a sum since
the latest recorded sample. Before the first sample that sum is zero, whatever
the kernel has counted by then.
-/

namespace HttpMonitoring.Throughput

open Accounting Zone History Collectors Rates Collection Library.CString Library.Scanf
  Library.RowTable Library.ScaledQuotient

variable {w : Nat}

inductive Traffic
  | rx
  | tx
  | diskRead
  | diskWrite
deriving DecidableEq

instance : Fintype Traffic := ⟨{.rx, .tx, .diskRead, .diskWrite}, fun t => by cases t <;> decide⟩

namespace Traffic

def channel : Traffic → Channel
  | .rx => .netRx
  | .tx => .netTx
  | .diskRead => .diskRead
  | .diskWrite => .diskWrite

/-- The sum of the kernel's counters, in bytes. -/
def sum (k : Readings) : Traffic → Nat
  | .rx => (k.ifaces.map IfaceReading.rxBytes).sum
  | .tx => (k.ifaces.map IfaceReading.txBytes).sum
  | .diskRead => (k.disks.map fun r => r.sectorsRead * 512).sum
  | .diskWrite => (k.disks.map fun r => r.sectorsWritten * 512).sum

def published (sample : HistorySample w) : Traffic → ℚ
  | .rx => sample.networkRxPerSec
  | .tx => sample.networkTxPerSec
  | .diskRead => sample.diskReadPerSec
  | .diskWrite => sample.diskWritePerSec

end Traffic

/-- The sum at the latest of the samples. -/
def latestSum (samples : List (Sampled w)) (t : Traffic) : Nat :=
  (samples.getLast?.map fun s => t.sum s.readings).getD 0

/-- The rates of a sample are at most the growth of the sums since the one before. -/
def Bounded (earlier s : Sampled w) : Prop :=
  ∀ t : Traffic, t.published s.sample ≤
    ((t.sum s.readings - t.sum earlier.readings) * 1000 / s.dt.toNat : Nat)

structure CountsSeen (samples : List (Sampled w)) : Prop where
  first : ∀ s, samples.head? = some s → ∀ t : Traffic, t.published s.sample = 0
  later : samples.IsChain Bounded

/-- No sum of the kernel's counters falls from a sample to the next. -/
def NonDecreasing (samples : List (Sampled w)) : Prop :=
  samples.IsChain fun earlier s => ∀ t : Traffic, t.sum earlier.readings ≤ t.sum s.readings

theorem toWord_long (hw : w ≤ 64) (n : Nat) : toWord (long n) = BitVec.ofNat w n :=
  BitVec.setWidth_ofNat_of_le hw n

theorem sum_ofNat {ρ : Type*} (value : ρ → Nat) (read : List ρ) :
    (read.map fun r => BitVec.ofNat w (value r)).sum = BitVec.ofNat w (read.map value).sum := by
  induction read with
  | nil => rfl
  | cons r read ih => rw [List.map_cons, List.map_cons, List.sum_cons, List.sum_cons, ih, BitVec.ofNat_add]

theorem storeFlags_bytes (count : Nat) (ifaces : Nat → IfaceMetric w) (ifa : Ifaddr) (i : Nat) :
    (storeFlags count ifaces ifa i).rxBytes = (ifaces i).rxBytes ∧
      (storeFlags count ifaces ifa i).txBytes = (ifaces i).txBytes := by
  cases hName : ifa.name with
  | none => simp [storeFlags, hName]
  | some name =>
    cases hFound : (List.range count).find? fun i => strncmpEq nameLen (ifaces i).name name with
    | none => simp [storeFlags, hName, hFound]
    | some j =>
      rcases eq_or_ne i j with rfl | hOther
      · simp [storeFlags, hName, hFound]
      · simp [storeFlags, hName, hFound, Function.update_of_ne hOther]

theorem foldl_storeFlags_bytes (count : Nat) (addresses : List Ifaddr) (ifaces : Nat → IfaceMetric w)
    (i : Nat) : (addresses.foldl (storeFlags count) ifaces i).rxBytes = (ifaces i).rxBytes ∧
      (addresses.foldl (storeFlags count) ifaces i).txBytes = (ifaces i).txBytes := by
  induction addresses generalizing ifaces with
  | nil => exact ⟨rfl, rfl⟩
  | cons ifa addresses ih =>
    obtain ⟨hRx, hTx⟩ := ih (storeFlags count ifaces ifa)
    obtain ⟨hRx', hTx'⟩ := storeFlags_bytes count ifaces ifa i
    exact ⟨hRx.trans hRx', hTx.trans hTx'⟩

theorem readRows_count {ι ρ τ : Type*} {bound : Nat} (lines : List ι) (rows : Nat → τ) (hw : 6 ≤ w)
    (hBound : bound ≤ 32) (parse : ι → Option ρ) (store : ρ → τ → τ) :
    min (BitVec.ofNat w (readRows bound parse store lines 0 rows).1).toNat bound =
      (stored bound parse lines).length := by
  have hRows : (readRows bound parse store lines 0 rows).1 = (stored bound parse lines).length := by
    rw [readRows_zero]
  have hLength : (stored bound parse lines).length ≤ bound := length_stored_le lines
  have hWord : 2 ^ 6 ≤ 2 ^ w := Nat.pow_le_pow_right (by omega) hw
  rw [hRows, BitVec.toNat_ofNat, Nat.mod_eq_of_lt (by omega), Nat.min_eq_left hLength]

section Tables

variable {sh : Shctx w} {k : Readings} (hw : 6 ≤ w) (hw' : w ≤ 64)
  (h : ∀ t : Traffic, t.channel.now sh = BitVec.ofNat w (t.sum k))
include hw hw' h

theorem now_collectNetwork (file : Option Bytes) (addresses : Option (List Ifaddr)) (t : Traffic) :
    t.channel.now (collectNetwork file addresses sh) = BitVec.ofNat w (t.sum (k.readNetwork file)) := by
  rw [collectNetwork, Readings.readNetwork]
  cases readFile file 32768 with
  | none => exact h t
  | some buf =>
    have hCount := readRows_count (lines buf) sh.ifaces hw (by decide : ifacesMax ≤ 32) readIface storeIface
    cases t with
    | rx =>
      have hStore : ∀ (r : IfaceReading) (m : IfaceMetric w),
          (storeIface r m).rxBytes = BitVec.ofNat w r.rxBytes := fun r _ => toWord_long hw' r.rxBytes
      simp only [Traffic.channel, Channel.now, sumNetwork, hCount, foldl_storeFlags_bytes,
        Bool.false_eq_true, if_false]
      rw [sum_rows IfaceMetric.rxBytes _ hStore, sum_ofNat, Traffic.sum]
    | tx =>
      have hStore : ∀ (r : IfaceReading) (m : IfaceMetric w),
          (storeIface r m).txBytes = BitVec.ofNat w r.txBytes := fun r _ => toWord_long hw' r.txBytes
      simp only [Traffic.channel, Channel.now, sumNetwork, hCount, foldl_storeFlags_bytes, if_true]
      rw [sum_rows IfaceMetric.txBytes _ hStore, sum_ofNat, Traffic.sum]
    | diskRead => exact h .diskRead
    | diskWrite => exact h .diskWrite

theorem now_collectDiskstats (file : Option Bytes) (t : Traffic) :
    t.channel.now (collectDiskstats file sh) = BitVec.ofNat w (t.sum (k.readDiskstats file)) := by
  rw [collectDiskstats, Readings.readDiskstats]
  cases readFile file 65536 with
  | none => exact h t
  | some buf =>
    have hCount := readRows_count (lines buf) sh.disks hw (by decide : disksMax ≤ 32) readDisk storeDisk
    cases t with
    | rx => exact h .rx
    | tx => exact h .tx
    | diskRead =>
      have hStore : ∀ (r : DiskReading) (m : DiskMetric w),
          (storeDisk r m).readBytes = BitVec.ofNat w (r.sectorsRead * 512) := fun r _ =>
        toWord_scaled hw' r.sectorsRead 512
      simp only [Traffic.channel, Channel.now, sumDisk, hCount, Bool.false_eq_true, if_false]
      rw [sum_rows DiskMetric.readBytes _ hStore, sum_ofNat, Traffic.sum]
    | diskWrite =>
      have hStore : ∀ (r : DiskReading) (m : DiskMetric w),
          (storeDisk r m).writeBytes = BitVec.ofNat w (r.sectorsWritten * 512) := fun r _ =>
        toWord_scaled hw' r.sectorsWritten 512
      simp only [Traffic.channel, Channel.now, sumDisk, hCount, if_true]
      rw [sum_rows DiskMetric.writeBytes _ hStore, sum_ofNat, Traffic.sum]

end Tables

/-- The rates are the quotients of the word differences from the sample before. -/
def Measured (samples : List (Sampled w)) : Prop :=
  ∀ n s, samples[n]? = some s → 0 < s.dt.toNat ∧ ∀ t : Traffic, t.published s.sample =
    ((t.sum s.readings % 2 ^ w - latestSum (samples.take n) t % 2 ^ w) * 1000 % 2 ^ w / s.dt.toNat : Nat)

structure Inv (tr : Trace w) : Prop where
  now : ∀ t : Traffic, t.channel.now tr.sh = BitVec.ofNat w (t.sum tr.readings)
  prev : ∀ t : Traffic, t.channel.prev tr.sh = BitVec.ofNat w (latestSum tr.sampled t)
  measured : Measured tr.sampled

theorem inv_start (conf : MainConf w) : Inv (Trace.start conf) := by
  refine ⟨fun t => ?_, fun t => ?_, fun n s hs => ?_⟩
  · cases t <;>
      simp [Traffic.channel, Channel.now, Traffic.sum, Trace.start, freshZone, zeroedShctx, sumNetwork,
        sumDisk]
  · cases t <;> rfl
  · cases hs

/-- The traffic of a zone is known from the cells that only the collectors write. -/
theorem traffic_congr {sh sh' : Shctx w} (h : collectorCells sh' = collectorCells sh) (t : Traffic) :
    t.channel.now sh' = t.channel.now sh ∧ t.channel.prev sh' = t.channel.prev sh := by
  have hIfaceCount : sh'.ifaceCount = sh.ifaceCount := congrArg CollectorCells.ifaceCount h
  have hIfaces : sh'.ifaces = sh.ifaces := congrArg CollectorCells.ifaces h
  have hDiskCount : sh'.diskCount = sh.diskCount := congrArg CollectorCells.diskCount h
  have hDisks : sh'.disks = sh.disks := congrArg CollectorCells.disks h
  have hPrev : Channel.prev sh' = Channel.prev sh := congrArg CollectorCells.prev h
  refine ⟨?_, congrFun hPrev _⟩
  cases t with
  | rx | tx => simp only [Traffic.channel, Channel.now, sumNetwork, hIfaceCount, hIfaces]
  | diskRead | diskWrite => simp only [Traffic.channel, Channel.now, sumDisk, hDiskCount, hDisks]

theorem published_recordedSample (conf : MainConf w) (clock : Clock w) (sh : Shctx w) (t : Traffic) :
    t.published (recordedSample conf clock sh) = (t.channel.rate conf clock sh).toNat := by
  cases t <;> rfl

theorem latestSum_append (samples : List (Sampled w)) (s : Sampled w) (t : Traffic) :
    latestSum (samples ++ [s]) t = t.sum s.readings := by
  rw [latestSum, List.getLast?_concat]
  rfl

theorem Measured.append {samples : List (Sampled w)} {s : Sampled w} (h : Measured samples)
    (hTime : 0 < s.dt.toNat) (hRates : ∀ t : Traffic, t.published s.sample =
      ((t.sum s.readings % 2 ^ w - latestSum samples t % 2 ^ w) * 1000 % 2 ^ w / s.dt.toNat : Nat)) :
    Measured (samples ++ [s]) := by
  intro n other hOther
  rcases Nat.lt_or_ge n samples.length with hEarlier | hLast
  · rw [List.getElem?_append_left hEarlier] at hOther
    rw [List.take_append_of_le_length hEarlier.le]
    exact h n other hOther
  · rw [List.getElem?_append_right hLast, List.getElem?_singleton] at hOther
    split at hOther
    · obtain rfl := Option.some.inj hOther
      rw [List.take_append_of_le_length (by omega), List.take_of_length_le hLast]
      exact ⟨hTime, hRates⟩
    · cases hOther

section Step

variable {tr : Trace w}

theorem Inv.record (h : Inv tr) (hw : 20 ≤ w) (conf : MainConf w) (clock : Clock w) :
    Inv (tr.step (.history conf clock)) := by
  rcases collectHistory_writes conf clock tr.sh with ⟨hEarly, hSame⟩ | ⟨hDue, -, -, -, hChannels⟩
  · refine ⟨fun t => ?_, fun t => ?_, ?_⟩
    · simp only [Trace.step, Stage.apply, hSame]
      exact h.now t
    · simp only [Trace.step, Stage.apply, Trace.sampledAfter, if_pos hEarly, hSame]
      exact h.prev t
    · simp only [Trace.step, Trace.sampledAfter, if_pos hEarly]
      exact h.measured
  · refine ⟨fun t => ?_, fun t => ?_, ?_⟩
    · exact (hChannels t.channel).1.trans (h.now t)
    · simp only [Trace.step, Stage.apply, Trace.sampledAfter, if_neg hDue, latestSum_append]
      exact (hChannels t.channel).2.trans (h.now t)
    · simp only [Trace.step, Trace.sampledAfter, if_neg hDue]
      refine h.measured.append (elapsed_pos (by omega) conf _ tr.sh) fun t => ?_
      have hScale : t.channel.scale = 1000 := by cases t <;> rfl
      rw [published_recordedSample, Channel.toNat_rate hw, Channel.product, h.now, h.prev, hScale,
        BitVec.toNat_ofNat, BitVec.toNat_ofNat]

/-- A stage that neither records nor reads traffic. -/
theorem Inv.other (h : Inv tr) {stage : Stage w} (hReadings : tr.readingsAfter stage = tr.readings)
    (hSampled : tr.sampledAfter stage = tr.sampled)
    (hSame : ∀ t : Traffic, t.channel.now (stage.apply tr.sh) = t.channel.now tr.sh ∧
      t.channel.prev (stage.apply tr.sh) = t.channel.prev tr.sh) : Inv (tr.step stage) := by
  obtain ⟨hNow, hPrev, hMeasured⟩ := h
  rw [← hReadings] at hNow
  rw [← hSampled] at hPrev hMeasured
  exact ⟨fun t => (hSame t).1.trans (hNow t), fun t => (hSame t).2.trans (hPrev t), hMeasured⟩

theorem Inv.step (h : Inv tr) (hw : 20 ≤ w) (hw' : w ≤ 64) (stage : Stage w) : Inv (tr.step stage) := by
  cases stage with
  | cpu file =>
    obtain ⟨_, _, _, _, hWrites⟩ := collectCpu_writes file tr.sh
    refine h.other rfl rfl fun t => ?_
    rw [Stage.apply, hWrites]
    exact ⟨rfl, rfl⟩
  | meminfo file =>
    obtain ⟨_, _, hWrites⟩ := collectMeminfo_writes file tr.sh
    refine h.other rfl rfl fun t => ?_
    rw [Stage.apply, hWrites]
    exact ⟨rfl, rfl⟩
  | diskstats file =>
    obtain ⟨_, _, hWrites⟩ := collectDiskstats_writes file tr.sh
    refine ⟨fun t => now_collectDiskstats (by omega) hw' h.now file t, fun t => ?_, h.measured⟩
    simp only [Trace.step, Stage.apply, hWrites]
    exact h.prev t
  | filesystems statvfs mounts =>
    obtain ⟨_, _, hWrites⟩ := collectFilesystems_writes statvfs mounts tr.sh
    refine h.other rfl rfl fun t => ?_
    rw [Stage.apply, hWrites]
    exact ⟨rfl, rfl⟩
  | network file addresses =>
    obtain ⟨_, _, hWrites⟩ := collectNetwork_writes file addresses tr.sh
    refine ⟨fun t => now_collectNetwork (by omega) hw' h.now file addresses t, fun t => ?_, h.measured⟩
    simp only [Trace.step, Stage.apply, hWrites]
    exact h.prev t
  | history conf clock => exact h.record hw conf clock
  | other write => exact h.other rfl rfl fun t => traffic_congr (write.cells_apply tr.sh) t

end Step

theorem inv_trace (hw : 20 ≤ w) (hw' : w ≤ 64) (conf : MainConf w) (stages : List (Stage w)) :
    Inv (trace conf stages) :=
  trace_induction (inv_start conf) (fun _ h stage => h.step hw hw' stage) stages

theorem later_of_measured {samples : List (Sampled w)} (h : Measured samples)
    (hKernel : NonDecreasing samples) : samples.IsChain Bounded := by
  refine List.isChain_iff_getElem.mpr fun n hn t => ?_
  have hGrown := List.isChain_iff_getElem.mp hKernel n hn t
  generalize hEarlier : samples[n] = earlier at hGrown
  generalize hLater : samples[n + 1] = s at hGrown ⊢
  have hBefore : latestSum (samples.take (n + 1)) t = t.sum earlier.readings := by
    rw [List.take_add_one, List.getElem?_eq_getElem (Nat.lt_of_succ_lt hn), hEarlier, Option.toList_some,
      latestSum_append]
  rw [(h (n + 1) s (hLater ▸ List.getElem?_eq_getElem hn)).2 t, hBefore, Nat.cast_le]
  calc
    (t.sum s.readings % 2 ^ w - t.sum earlier.readings % 2 ^ w) * 1000 % 2 ^ w / s.dt.toNat ≤
        (t.sum s.readings % 2 ^ w - t.sum earlier.readings % 2 ^ w) * 1000 / s.dt.toNat := mod_div_le _ _ _
    _ ≤ (t.sum s.readings - t.sum earlier.readings) * 1000 / s.dt.toNat :=
      Nat.div_le_div_right (Nat.mul_le_mul_right 1000 (mod_sub_mod_le hGrown))

theorem first_of_measured {samples : List (Sampled w)} (h : Measured samples) {s : Sampled w}
    (hFirst : samples.head? = some s) (t : Traffic) : t.published s.sample = 0 ↔
      t.sum s.readings % 2 ^ w * 1000 % 2 ^ w < s.dt.toNat := by
  obtain ⟨hTime, hRates⟩ := h 0 s (List.head?_eq_getElem? ▸ hFirst)
  have hNone : latestSum (samples.take 0) t = 0 := rfl
  rw [hRates t, hNone, Nat.zero_mod, Nat.sub_zero, Nat.cast_eq_zero, Nat.div_eq_zero_iff]
  exact or_iff_right hTime.ne'

/-- Whatever the order of the stages, the later samples count only traffic that
was seen, and the first one does just when what the kernel had counted before
it is too little for a rate. -/
theorem counts_seen_iff (hw : 20 ≤ w) (hw' : w ≤ 64) (conf : MainConf w) (stages : List (Stage w))
    (hKernel : NonDecreasing (trace conf stages).sampled) :
    (CountsSeen (trace conf stages).sampled ↔ ∀ s, (trace conf stages).sampled.head? = some s →
        ∀ t : Traffic, t.sum s.readings % 2 ^ w * 1000 % 2 ^ w < s.dt.toNat) ∧
      (trace conf stages).sampled.IsChain Bounded := by
  have hMeasured := (inv_trace hw hw' conf stages).measured
  have hLater := later_of_measured hMeasured hKernel
  refine ⟨?_, hLater⟩
  constructor
  · intro h s hs t
    exact (first_of_measured hMeasured hs t).mp (h.first s hs t)
  · intro h
    exact ⟨fun s hs t => (first_of_measured hMeasured hs t).mpr (h s hs t), hLater⟩

/-- A pass at a second of the clock that finds nothing but interfaces. -/
def passOf (second : Int) (netDev : Bytes) : PassInputs 64 :=
  { PassInputs.blind conf64 ⟨second, 0⟩ with netDev := some netDev }

def upForLong : List (Stage 64) :=
  (passOf 1710000000 (ascii "eth0: 5000000000 9 0 0 0 0 0 0 7000 8 0 0 0 0 0 0")).stages

/-- The first sample of a host that has received five gigabytes since it was
started says that it receives five gigabytes a second. -/
theorem first_sample_counts_unseen : NonDecreasing (trace conf64 upForLong).sampled ∧
    ¬ CountsSeen (trace conf64 upForLong).sampled := by
  have hRates : (trace conf64 upForLong).sampled.map (fun s => s.sample.networkRxPerSec) = [5000000000] := by
    decide +kernel
  cases hSampled : (trace conf64 upForLong).sampled with
  | nil =>
    rw [hSampled] at hRates
    cases hRates
  | cons s rest =>
    rw [hSampled, List.map_cons] at hRates
    obtain ⟨hRate, hRest⟩ := List.cons.inj hRates
    obtain rfl := List.map_eq_nil_iff.mp hRest
    refine ⟨List.isChain_singleton s, fun h => ?_⟩
    have hZero : s.sample.networkRxPerSec = 0 := h.first s rfl .rx
    rw [hRate] at hZero
    exact absurd hZero (by decide)

def page : Call 64 where
  request := ⟨1710000000, 0, 200, 10, 2, false, 1, ascii "/", none, []⟩
  clock := ⟨1710000000, 3⟩
  worker := ⟨0, 4000⟩

/-- A request is accounted and the configuration reloaded between two passes. -/
def twoPasses : List (Stage 64) :=
  (passOf 1710000000 (ascii "eth0: 1000 9 0 0 0 0 0 0 7000 8 0 0 0 0 0 0")).stages ++
    [.other (.accounted (fun _ => 0) conf64 page), .other (.adopted conf64)] ++
    (passOf 1710000001 (ascii "eth0: 3000 9 0 0 0 0 0 0 7000 8 0 0 0 0 0 0")).stages

theorem second_sample_counts_seen : (trace conf64 twoPasses).sampled.IsChain Bounded ∧
    (trace conf64 twoPasses).sampled.map (fun s => s.sample.networkRxPerSec) = [1000, 2000] := by
  have hKernel : NonDecreasing (trace conf64 twoPasses).sampled := by
    unfold NonDecreasing
    decide +kernel
  refine ⟨(counts_seen_iff (by decide) (by decide) conf64 twoPasses hKernel).2, ?_⟩
  decide +kernel

end HttpMonitoring.Throughput
