import HttpMonitoring.Collection

/-!
# The usage of the processors

The usage is updated when the total of the counters has grown. The differences
behind it are taken in words of 64 bits, and that of the idle counters may be
negative or larger than that of the total.
-/

namespace HttpMonitoring.CpuUsage

open Accounting Zone History Collectors Rates Collection

variable {w : Nat}

structure Below (t : CpuTimes) (bound : Nat) : Prop where
  user : t.user.toNat < bound
  nice : t.nice.toNat < bound
  system : t.system.toNat < bound
  idle : t.idle.toNat < bound
  iowait : t.iowait.toNat < bound
  irq : t.irq.toNat < bound
  softirq : t.softirq.toNat < bound
  steal : t.steal.toNat < bound

instance (t : CpuTimes) (bound : Nat) : Decidable (Below t bound) :=
  decidable_of_iff (t.user.toNat < bound ∧ t.nice.toNat < bound ∧ t.system.toNat < bound ∧
      t.idle.toNat < bound ∧ t.iowait.toNat < bound ∧ t.irq.toNat < bound ∧ t.softirq.toNat < bound ∧
      t.steal.toNat < bound)
    ⟨fun ⟨h₁, h₂, h₃, h₄, h₅, h₆, h₇, h₈⟩ => ⟨h₁, h₂, h₃, h₄, h₅, h₆, h₇, h₈⟩,
      fun ⟨h₁, h₂, h₃, h₄, h₅, h₆, h₇, h₈⟩ => ⟨h₁, h₂, h₃, h₄, h₅, h₆, h₇, h₈⟩⟩

def sum (t : CpuTimes) : Nat :=
  t.user.toNat + t.nice.toNat + t.system.toNat + t.idle.toNat + t.iowait.toNat + t.irq.toNat +
    t.softirq.toNat + t.steal.toNat

def idleSum (t : CpuTimes) : Nat := t.idle.toNat + t.iowait.toNat

theorem Below.sum_lt {t : CpuTimes} (h : Below t (2 ^ 40)) : sum t < 2 ^ 43 := by
  obtain ⟨h₁, h₂, h₃, h₄, h₅, h₆, h₇, h₈⟩ := h
  rw [sum]
  omega

theorem idleSum_le (t : CpuTimes) : idleSum t ≤ sum t := by
  rw [idleSum, sum]
  omega

theorem Below.toNat_total {t : CpuTimes} (h : Below t (2 ^ 40)) : t.total.toNat = sum t := by
  have hSum := h.sum_lt
  rw [sum] at hSum
  simp only [CpuTimes.total, BitVec.toNat_add, sum]
  omega

theorem Below.toNat_idleAll {t : CpuTimes} (h : Below t (2 ^ 40)) : t.idleAll.toNat = idleSum t := by
  have hSum := h.sum_lt
  have hIdle := idleSum_le t
  rw [idleSum] at hIdle
  rw [CpuTimes.idleAll, BitVec.toNat_add, idleSum]
  omega

/-- The usage between two readings, as `collect_cpu` computes it. -/
def usageBetween (p t : CpuTimes) : BitVec 64 := usage (t.total - p.total) (t.idleAll - p.idleAll)

/-- The total has grown since a reading that is not zero. -/
def Updates (p t : CpuTimes) : Prop := 0 < sum p ∧ sum p < sum t

instance (p t : CpuTimes) : Decidable (Updates p t) := inferInstanceAs (Decidable (_ ∧ _))

/-- The idle counters have not fallen, and have not grown by more than all. -/
def Regular (p t : CpuTimes) : Prop := idleSum p ≤ idleSum t ∧ idleSum t - idleSum p ≤ sum t - sum p

/-- The idle counters have fallen by less than a unit of the usage. -/
def FallsLittle (p t : CpuTimes) : Prop :=
  idleSum t < idleSum p ∧ (idleSum p - idleSum t) * 100000 < sum t - sum p

instance (p t : CpuTimes) : Decidable (Regular p t) := inferInstanceAs (Decidable (_ ∧ _))

instance (p t : CpuTimes) : Decidable (FallsLittle p t) := inferInstanceAs (Decidable (_ ∧ _))

def Steady (p t : CpuTimes) : Prop := Updates p t → Regular p t ∨ FallsLittle p t

instance (p t : CpuTimes) : Decidable (Steady p t) := inferInstanceAs (Decidable (_ → _))

theorem wrapped_product {lack : Nat} (h : lack < 2 ^ 43) (hSome : 0 < lack) :
    (2 ^ 64 - lack) * 100000 % 2 ^ 64 = 2 ^ 64 - 100000 * lack := by
  have hProduct : (2 ^ 64 - lack) * 100000 = 2 ^ 64 - 100000 * lack + 2 ^ 64 * 99999 := by omega
  rw [hProduct, Nat.add_mul_mod_self_left, Nat.mod_eq_of_lt (by omega)]

section Update

variable {p t : CpuTimes} (hp : Below p (2 ^ 40)) (ht : Below t (2 ^ 40))
include hp ht

theorem toNat_usageBetween (hGrown : sum p < sum t) : (usageBetween p t).toNat =
    (2 ^ 64 + (sum t - sum p) + idleSum p - idleSum t) % 2 ^ 64 * 100000 % 2 ^ 64 / (sum t - sum p) := by
  have hTotal : (t.total - p.total).toNat = sum t - sum p := by
    have hLe : p.total ≤ t.total := by
      rw [BitVec.le_def, hp.toNat_total, ht.toNat_total]
      exact hGrown.le
    rw [BitVec.toNat_sub_of_le hLe, hp.toNat_total, ht.toNat_total]
  have hSum := ht.sum_lt
  have hIdle := idleSum_le t
  have hBusy : (t.total - p.total - (t.idleAll - p.idleAll)).toNat =
      (2 ^ 64 + (sum t - sum p) + idleSum p - idleSum t) % 2 ^ 64 := by
    have hSum' := hp.sum_lt
    have hIdle' := idleSum_le p
    rw [BitVec.toNat_sub, hTotal, BitVec.toNat_sub, hp.toNat_idleAll, ht.toNat_idleAll]
    omega
  rw [usageBetween, usage, BitVec.toNat_udiv, BitVec.toNat_mul, hBusy, hTotal]
  rfl

theorem usageBetween_regular (hGrown : sum p < sum t) (h : Regular p t) : (usageBetween p t).toNat =
    100000 * (sum t - sum p - (idleSum t - idleSum p)) / (sum t - sum p) := by
  obtain ⟨hKept, hPart⟩ := h
  have hSum := ht.sum_lt
  have hBusy : (2 ^ 64 + (sum t - sum p) + idleSum p - idleSum t) % 2 ^ 64 * 100000 % 2 ^ 64 =
      100000 * (sum t - sum p - (idleSum t - idleSum p)) := by
    omega
  rw [toNat_usageBetween hp ht hGrown, hBusy]

theorem usageBetween_fallen (hGrown : sum p < sum t) (h : idleSum t < idleSum p) :
    (usageBetween p t).toNat = 100000 + (idleSum p - idleSum t) * 100000 / (sum t - sum p) := by
  have hSum := ht.sum_lt
  have hSum' := hp.sum_lt
  have hIdle := idleSum_le p
  have hBusy : (2 ^ 64 + (sum t - sum p) + idleSum p - idleSum t) % 2 ^ 64 * 100000 % 2 ^ 64 =
      (idleSum p - idleSum t) * 100000 + (sum t - sum p) * 100000 := by
    omega
  rw [toNat_usageBetween hp ht hGrown, hBusy, Nat.add_mul_div_left _ _ (Nat.sub_pos_of_lt hGrown),
    Nat.add_comm]

/-- An idle difference above that of the total wraps to a huge usage. -/
theorem usageBetween_wrapped (hGrown : sum p < sum t) (h : sum t - sum p < idleSum t - idleSum p) :
    100000 < (usageBetween p t).toNat := by
  have hSum := ht.sum_lt
  have hIdle := idleSum_le t
  obtain ⟨lack, hLack⟩ : ∃ lack, idleSum t - idleSum p = sum t - sum p + lack := 
    Nat.exists_eq_add_of_le h.le
  have hSome : 0 < lack := by omega
  have hSmall : lack < 2 ^ 43 := by omega
  have hTotal : sum t - sum p < 2 ^ 43 := by omega
  have hDifference : 2 ^ 64 + (sum t - sum p) + idleSum p - idleSum t = 2 ^ 64 - lack := by omega
  have hWord : (2 ^ 64 - lack) % 2 ^ 64 = 2 ^ 64 - lack := Nat.mod_eq_of_lt (by omega)
  rw [toNat_usageBetween hp ht hGrown, hDifference, hWord, wrapped_product hSmall hSome,
    ← Nat.succ_le_iff, Nat.le_div_iff_mul_le (Nat.sub_pos_of_lt hGrown)]
  omega

theorem usageBetween_le_iff (hGrown : sum p < sum t) :
    (usageBetween p t).toNat ≤ 100000 ↔ Regular p t ∨ FallsLittle p t := by
  have hTime : 0 < sum t - sum p := Nat.sub_pos_of_lt hGrown
  constructor
  · intro hSmall
    rcases Nat.lt_or_ge (idleSum t) (idleSum p) with hFallen | hKept
    · rw [usageBetween_fallen hp ht hGrown hFallen] at hSmall
      have hNone : (idleSum p - idleSum t) * 100000 / (sum t - sum p) = 0 :=
        Nat.le_zero.mp (Nat.le_of_add_le_add_left hSmall)
      exact Or.inr ⟨hFallen, (Nat.div_eq_zero_iff.mp hNone).resolve_left hTime.ne'⟩
    · refine Or.inl ⟨hKept, ?_⟩
      by_contra hAbove
      exact absurd (usageBetween_wrapped hp ht hGrown (not_le.mp hAbove)) (not_lt.mpr hSmall)
  · rintro (hRegular | ⟨hFallen, hLittle⟩)
    · rw [usageBetween_regular hp ht hGrown hRegular]
      refine Nat.div_le_of_le_mul ?_
      rw [Nat.mul_comm _ 100000]
      exact Nat.mul_le_mul_left 100000 (Nat.sub_le _ _)
    · rw [usageBetween_fallen hp ht hGrown hFallen, Nat.div_eq_of_lt hLittle]

end Update

/-- The calls that read the counters, with the usage after them. -/
def reads (calls : List (CpuCall w)) : List (CpuTimes × BitVec w) :=
  calls.filterMap fun c => c.times.map fun t => (t, c.usageMilli)

/-- An update, or the usage from before. -/
def Computes (r r' : CpuTimes × BitVec w) : Prop :=
  r'.2 = if 0 < r.1.total.toNat ∧ r.1.total.toNat < r'.1.total.toNat then toWord (usageBetween r.1 r'.1)
    else r.2

def Exact (r r' : CpuTimes × BitVec w) : Prop :=
  Updates r.1 r'.1 → Regular r.1 r'.1 → r'.2.toNat =
    100000 * (sum r'.1 - sum r.1 - (idleSum r'.1 - idleSum r.1)) / (sum r'.1 - sum r.1)

/-- The usage is a percentage in thousandths, and the true one after a regular update. -/
structure Percentage (calls : List (CpuCall w)) : Prop where
  inRange : ∀ c ∈ calls, c.usageMilli.toNat ≤ 100000
  exact : (reads calls).IsChain Exact

theorem updateUsage_usageMilli (t : CpuTimes) (sh : Shctx w) : (updateUsage t sh).system.usageMilli =
    if 0 < sh.prevCpuTotal.toNat ∧ sh.prevCpuTotal.toNat < t.total.toNat then
      toWord (usage (t.total - sh.prevCpuTotal) (t.idleAll - sh.prevCpuIdle))
    else sh.system.usageMilli := by
  rw [updateUsage]
  split
  · rename_i hGrown
    have hLe : sh.prevCpuTotal ≤ t.total := BitVec.le_def.mpr hGrown.2.le
    have hSome : 0 < (t.total - sh.prevCpuTotal).toNat := by
      rw [BitVec.toNat_sub_of_le hLe]
      exact Nat.sub_pos_of_lt hGrown.2
    simp only [if_pos hSome]
  · rfl

theorem updateCores_cells (buf : Bytes) (sh : Shctx w) :
    (updateCores buf sh).system.usageMilli = sh.system.usageMilli ∧
      (updateCores buf sh).prevCpuTotal = sh.prevCpuTotal ∧
      (updateCores buf sh).prevCpuIdle = sh.prevCpuIdle := by
  rw [updateCores]
  dsimp only
  split
  · exact ⟨rfl, rfl, rfl⟩
  · exact ⟨rfl, rfl, rfl⟩

theorem collectCpu_failed {file : Option Bytes} (h : readCpu file = none) (sh : Shctx w) :
    collectCpu file sh = sh := by
  rw [collectCpu]
  cases hFile : readFile file 32768 with
  | none => rfl
  | some buf =>
    rw [readCpu, hFile, Option.bind_some] at h
    simp only [h]

theorem collectCpu_read {file : Option Bytes} {t : CpuTimes} (h : readCpu file = some t) (sh : Shctx w) :
    (collectCpu file sh).system.usageMilli = (updateUsage t sh).system.usageMilli ∧
      (collectCpu file sh).prevCpuTotal = t.total ∧ (collectCpu file sh).prevCpuIdle = t.idleAll := by
  obtain ⟨buf, hFile, hTimes⟩ := Option.bind_eq_some_iff.mp h
  rw [collectCpu]
  simp only [hFile, hTimes]
  exact updateCores_cells buf { updateUsage t sh with prevCpuTotal := t.total, prevCpuIdle := t.idleAll }

structure CpuCells (w : Nat) where
  total : BitVec 64
  idle : BitVec 64
  usageMilli : BitVec w

def cpuCells (sh : Shctx w) : CpuCells w := ⟨sh.prevCpuTotal, sh.prevCpuIdle, sh.system.usageMilli⟩

/-- What the latest of the reads left. -/
def left (read : List (CpuTimes × BitVec w)) : CpuCells w :=
  match read.getLast? with
  | none => ⟨0, 0, 0⟩
  | some r => ⟨r.1.total, r.1.idleAll, r.2⟩

structure Inv (tr : Trace w) : Prop where
  cells : cpuCells tr.sh = left (reads tr.cpuCalls)
  computed : (reads tr.cpuCalls).IsChain Computes
  first : ∀ r, (reads tr.cpuCalls).head? = some r → r.2 = 0
  failed : ∀ c ∈ tr.cpuCalls, c.usageMilli = 0 ∨ ∃ r ∈ reads tr.cpuCalls, r.2 = c.usageMilli

theorem inv_start (conf : MainConf w) : Inv (Trace.start conf) := by
  refine ⟨rfl, .nil, ?_, ?_⟩
  · intro r hr
    cases hr
  · intro c hc
    cases hc

theorem reads_append (calls : List (CpuCall w)) (c : CpuCall w) : reads (calls ++ [c]) =
    reads calls ++ (c.times.map fun t => (t, c.usageMilli)).toList := by
  cases hTimes : c.times with
  | none => simp [reads, hTimes]
  | some t => simp [reads, hTimes]

theorem left_append (read : List (CpuTimes × BitVec w)) (r : CpuTimes × BitVec w) :
    left (read ++ [r]) = ⟨r.1.total, r.1.idleAll, r.2⟩ := by
  rw [left, List.getLast?_concat]

section Step

variable {tr : Trace w} (h : Inv tr)
include h

theorem Inv.failing {file : Option Bytes} (hFile : readCpu file = none) : Inv (tr.step (.cpu file)) := by
  have hSame := collectCpu_failed hFile tr.sh
  have hReads : reads (tr.cpuCallsAfter (.cpu file)) = reads tr.cpuCalls := by
    rw [Trace.cpuCallsAfter, reads_append, hFile, Option.map_none, Option.toList_none, List.append_nil]
  have hCurrent : tr.sh.system.usageMilli = (left (reads tr.cpuCalls)).usageMilli :=
    congrArg CpuCells.usageMilli h.cells
  refine ⟨?_, ?_, ?_, ?_⟩
  · simp only [Trace.step, Stage.apply, hReads, hSame]
    exact h.cells
  · simp only [Trace.step, hReads]
    exact h.computed
  · simp only [Trace.step, hReads]
    exact h.first
  · simp only [Trace.step, hReads]
    intro c hc
    rcases List.mem_append.mp hc with hEarlier | hLast
    · exact h.failed c hEarlier
    · obtain rfl := List.mem_singleton.mp hLast
      simp only [hSame, hCurrent, left]
      cases hLatest : (reads tr.cpuCalls).getLast? with
      | none => exact Or.inl rfl
      | some r => exact Or.inr ⟨r, List.mem_of_getLast? hLatest, rfl⟩

theorem Inv.reading {file : Option Bytes} {t : CpuTimes} (hFile : readCpu file = some t) :
    Inv (tr.step (.cpu file)) := by
  obtain ⟨hUsage, hTotal, hIdle⟩ := collectCpu_read hFile tr.sh
  have hReads : reads (tr.cpuCallsAfter (.cpu file)) =
      reads tr.cpuCalls ++ [(t, (collectCpu file tr.sh).system.usageMilli)] := by
    rw [Trace.cpuCallsAfter, reads_append, hFile, Option.map_some, Option.toList_some]
  have hPrevTotal : tr.sh.prevCpuTotal = (left (reads tr.cpuCalls)).total := congrArg CpuCells.total h.cells
  have hPrevIdle : tr.sh.prevCpuIdle = (left (reads tr.cpuCalls)).idle := congrArg CpuCells.idle h.cells
  have hCurrent : tr.sh.system.usageMilli = (left (reads tr.cpuCalls)).usageMilli :=
    congrArg CpuCells.usageMilli h.cells
  rw [updateUsage_usageMilli, hPrevTotal, hPrevIdle, hCurrent] at hUsage
  refine ⟨?_, ?_, ?_, ?_⟩
  · simp only [Trace.step, Stage.apply, hReads, left_append, cpuCells, hTotal, hIdle]
  · simp only [Trace.step, hReads]
    refine List.isChain_append.mpr ⟨h.computed, .singleton _, fun r hr r' hr' => ?_⟩
    obtain rfl := Option.some.inj hr'
    rw [left, hr] at hUsage
    exact hUsage
  · simp only [Trace.step, hReads]
    intro r hr
    cases hEmpty : reads tr.cpuCalls with
    | nil =>
      rw [hEmpty] at hr hUsage
      obtain rfl := Option.some.inj hr
      exact hUsage
    | cons earlier rest =>
      rw [hEmpty] at hr
      exact h.first r (hEmpty ▸ hr)
  · simp only [Trace.step, hReads]
    intro c hc
    rcases List.mem_append.mp hc with hEarlier | hLast
    · rcases h.failed c hEarlier with hZero | ⟨r, hr, hSame⟩
      · exact Or.inl hZero
      · exact Or.inr ⟨r, List.mem_append_left _ hr, hSame⟩
    · obtain rfl := List.mem_singleton.mp hLast
      exact Or.inr ⟨_, List.mem_append_right _ (List.mem_singleton_self _), rfl⟩

/-- Only `collect_cpu` writes the cells. -/
theorem Inv.other {stage : Stage w} (hCalls : tr.cpuCallsAfter stage = tr.cpuCalls)
    (hCells : cpuCells (stage.apply tr.sh) = cpuCells tr.sh) : Inv (tr.step stage) := by
  obtain ⟨hHeld, hComputed, hFirst, hFailed⟩ := h
  rw [← hCalls] at hHeld hComputed hFirst hFailed
  exact ⟨hCells.trans hHeld, hComputed, hFirst, hFailed⟩

theorem Inv.step (stage : Stage w) : Inv (tr.step stage) := by
  cases stage with
  | cpu file =>
    cases hFile : readCpu file with
    | none => exact h.failing hFile
    | some t => exact h.reading hFile
  | meminfo file =>
    obtain ⟨system, hUsage, hWrites⟩ := collectMeminfo_writes file tr.sh
    refine h.other rfl ?_
    simp only [Stage.apply, hWrites, cpuCells, hUsage]
  | diskstats file =>
    obtain ⟨_, _, hWrites⟩ := collectDiskstats_writes file tr.sh
    refine h.other rfl ?_
    simp only [Stage.apply, hWrites, cpuCells]
  | filesystems statvfs mounts =>
    obtain ⟨_, _, hWrites⟩ := collectFilesystems_writes statvfs mounts tr.sh
    refine h.other rfl ?_
    simp only [Stage.apply, hWrites, cpuCells]
  | network file addresses =>
    obtain ⟨_, _, hWrites⟩ := collectNetwork_writes file addresses tr.sh
    refine h.other rfl ?_
    simp only [Stage.apply, hWrites, cpuCells]
  | history conf clock =>
    refine h.other rfl ?_
    rcases collectHistory_writes conf clock tr.sh with ⟨-, hSame⟩ | ⟨-, hSystem, hTotal, hIdle, -⟩
    · exact congrArg cpuCells hSame
    · simp only [Stage.apply, cpuCells, hSystem, hTotal, hIdle]
  | other write =>
    have hCells := write.cells_apply tr.sh
    have hUsage := congrArg CollectorCells.usageMilli hCells
    have hTotal := congrArg CollectorCells.prevCpuTotal hCells
    have hIdle := congrArg CollectorCells.prevCpuIdle hCells
    refine h.other rfl ?_
    rw [cpuCells, cpuCells]
    exact congr (congr (congrArg CpuCells.mk hTotal) hIdle) hUsage

end Step

theorem inv_trace (conf : MainConf w) (stages : List (Stage w)) : Inv (trace conf stages) :=
  trace_induction (inv_start conf) (fun _ h stage => h.step stage) stages

section Range

variable {r r' : CpuTimes × BitVec w}

theorem Computes.toNat (h : Computes r r') (hr : Below r.1 (2 ^ 40)) (hr' : Below r'.1 (2 ^ 40)) :
    r'.2.toNat = if Updates r.1 r'.1 then (usageBetween r.1 r'.1).toNat % 2 ^ w else r.2.toNat := by
  rw [Computes, hr.toNat_total, hr'.toNat_total] at h
  rw [h, apply_ite BitVec.toNat, toWord, BitVec.toNat_setWidth]
  rfl

theorem Computes.exact (h : Computes r r') (hw : 17 ≤ w) (hr : Below r.1 (2 ^ 40))
    (hr' : Below r'.1 (2 ^ 40)) : Exact r r' := by
  intro hUpdates hRegular
  have hSmall := (usageBetween_le_iff hr hr' hUpdates.2).mpr (Or.inl hRegular)
  have hWord : 2 ^ 17 ≤ 2 ^ w := Nat.pow_le_pow_right (by omega) hw
  rw [h.toNat hr hr', if_pos hUpdates, Nat.mod_eq_of_lt (by omega),
    usageBetween_regular hr hr' hUpdates.2 hRegular]

theorem Computes.le (h : Computes r r') (hr : Below r.1 (2 ^ 40)) (hr' : Below r'.1 (2 ^ 40))
    (hSteady : Steady r.1 r'.1) (hBefore : r.2.toNat ≤ 100000) : r'.2.toNat ≤ 100000 := by
  rw [h.toNat hr hr']
  split
  · rename_i hUpdates
    exact (Nat.mod_le _ _).trans ((usageBetween_le_iff hr hr' hUpdates.2).mpr (hSteady hUpdates))
  · exact hBefore

theorem Computes.steady (h : Computes r r') (hw : 64 ≤ w) (hr : Below r.1 (2 ^ 40))
    (hr' : Below r'.1 (2 ^ 40)) (hAfter : r'.2.toNat ≤ 100000) : Steady r.1 r'.1 := by
  intro hUpdates
  have hWord : (usageBetween r.1 r'.1).toNat < 2 ^ w :=
    (BitVec.isLt _).trans_le (Nat.pow_le_pow_right (by omega) hw)
  rw [h.toNat hr hr', if_pos hUpdates, Nat.mod_eq_of_lt hWord] at hAfter
  exact (usageBetween_le_iff hr hr' hUpdates.2).mp hAfter

/-- A usage in range stays in range along steady reads. -/
theorem le_of_steady {read : List (CpuTimes × BitVec w)} (hFirst : r.2.toNat ≤ 100000)
    (hComputed : (r :: read).IsChain Computes)
    (hSteady : (r :: read).IsChain fun r r' => Steady r.1 r'.1)
    (hSmall : ∀ r' ∈ r :: read, Below r'.1 (2 ^ 40)) : ∀ r' ∈ r :: read, r'.2.toNat ≤ 100000 := by
  induction read generalizing r with
  | nil =>
    intro r' hr'
    obtain rfl := List.mem_singleton.mp hr'
    exact hFirst
  | cons next read ih =>
    obtain ⟨hStep, hComputed⟩ := List.isChain_cons_cons.mp hComputed
    obtain ⟨hKeeps, hSteady⟩ := List.isChain_cons_cons.mp hSteady
    have hNext := hStep.le (hSmall r List.mem_cons_self)
      (hSmall next (List.mem_cons_of_mem r List.mem_cons_self)) hKeeps hFirst
    have hRest := ih hNext hComputed hSteady fun r' hr' => hSmall r' (List.mem_cons_of_mem r hr')
    intro r' hr'
    rcases List.mem_cons.mp hr' with rfl | hr'
    · exact hFirst
    · exact hRest r' hr'

end Range

theorem mem_calls_of_mem_reads {calls : List (CpuCall w)} {r : CpuTimes × BitVec w} (h : r ∈ reads calls) :
    ∃ c ∈ calls, c.usageMilli = r.2 := by
  obtain ⟨c, hc, hRead⟩ := List.mem_filterMap.mp h
  obtain ⟨t, -, rfl⟩ := Option.map_eq_some_iff.mp hRead
  exact ⟨c, hc, rfl⟩

/-- The usage is a percentage after every call if between any two reads the
idle counters change steadily, and on words of 64 bits only then. -/
theorem usage_is_percentage (hw : 17 ≤ w) (conf : MainConf w) (stages : List (Stage w))
    (hSmall : ∀ r ∈ reads (trace conf stages).cpuCalls, Below r.1 (2 ^ 40)) :
    ((reads (trace conf stages).cpuCalls).IsChain (fun r r' => Steady r.1 r'.1) →
        Percentage (trace conf stages).cpuCalls) ∧
      (64 ≤ w → Percentage (trace conf stages).cpuCalls →
        (reads (trace conf stages).cpuCalls).IsChain fun r r' => Steady r.1 r'.1) ∧
      (reads (trace conf stages).cpuCalls).IsChain Exact := by
  obtain ⟨-, hComputed, hFirst, hFailed⟩ := inv_trace conf stages
  have hExact : (reads (trace conf stages).cpuCalls).IsChain Exact := by
    refine List.isChain_iff_getElem.mpr fun n hn => ?_
    exact (List.isChain_iff_getElem.mp hComputed n hn).exact hw
      (hSmall _ (List.getElem_mem _)) (hSmall _ (List.getElem_mem _))
  refine ⟨fun hSteady => ⟨fun c hc => ?_, hExact⟩, fun hWide hPercentage => ?_, hExact⟩
  · rcases hFailed c hc with hZero | ⟨r, hr, hSame⟩
    · simp [hZero]
    · rw [← hSame]
      cases hReads : reads (trace conf stages).cpuCalls with
      | nil =>
        rw [hReads] at hr
        cases hr
      | cons first rest =>
        rw [hReads] at hComputed hSteady hSmall hr
        have hZero : first.2 = 0 := hFirst first (by rw [hReads]; rfl)
        exact le_of_steady (by simp [hZero]) hComputed hSteady hSmall r hr
  · refine List.isChain_iff_getElem.mpr fun n hn => ?_
    obtain ⟨c, hc, hSame⟩ := mem_calls_of_mem_reads (List.getElem_mem hn)
    have hRange := hPercentage.inRange c hc
    rw [hSame] at hRange
    exact (List.isChain_iff_getElem.mp hComputed n hn).steady hWide
      (hSmall _ (List.getElem_mem _)) (hSmall _ (List.getElem_mem _)) hRange

/-- The kernel counts 200 more ticks for users and 100 less for waiting. -/
def iowaitFalls : List (Stage 64) :=
  [.cpu (some (ascii "cpu  100 0 100 1000 500 0 0 0 0 0\n")),
    .cpu (some (ascii "cpu  300 0 100 1000 400 0 0 0 0 0\n"))]

theorem usage_above_all : (∀ r ∈ reads (trace conf64 iowaitFalls).cpuCalls, Below r.1 (2 ^ 40)) ∧
    ¬ Percentage (trace conf64 iowaitFalls).cpuCalls := by
  have hUsages : (trace conf64 iowaitFalls).cpuCalls.map CpuCall.usageMilli = [0, 200000] := by
    decide +kernel
  refine ⟨by decide +kernel, fun h => ?_⟩
  have hLast : (200000 : BitVec 64) ∈ (trace conf64 iowaitFalls).cpuCalls.map CpuCall.usageMilli := by
    rw [hUsages]
    decide
  obtain ⟨c, hc, hUsage⟩ := List.mem_map.mp hLast
  have hRange := h.inRange c hc
  rw [hUsage] at hRange
  exact absurd hRange (by decide)

/-- A quarter of the time is idle. -/
def mostlyBusy : List (Stage 64) :=
  [.cpu (some (ascii "cpu  100 0 100 1000 500 0 0 0 0 0\n")),
    .cpu (some (ascii "cpu  400 0 100 1050 550 0 0 0 0 0\n"))]

theorem usage_of_three_quarters : Percentage (trace conf64 mostlyBusy).cpuCalls ∧
    (trace conf64 mostlyBusy).cpuCalls.map CpuCall.usageMilli = [0, 75000] := by
  have hSmall : ∀ r ∈ reads (trace conf64 mostlyBusy).cpuCalls, Below r.1 (2 ^ 40) := by
    decide +kernel
  have hSteady : (reads (trace conf64 mostlyBusy).cpuCalls).IsChain fun r r' => Steady r.1 r'.1 := by
    decide +kernel
  refine ⟨(usage_is_percentage (by decide) conf64 mostlyBusy hSmall).1 hSteady, ?_⟩
  decide +kernel

end HttpMonitoring.CpuUsage
