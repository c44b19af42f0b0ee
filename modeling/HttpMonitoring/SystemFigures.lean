import HttpMonitoring.Collection
import HttpMonitoring.Library.WordRatio

/-!
# Memory and filesystem figures

Sizes are scaled to bytes in 64 bits and stored in machine words. What is shown
is consistent with the kernel's figures as long as the sizes fit in a word, and
beyond only where the cut keeps ratios or differences.
-/

namespace HttpMonitoring.SystemFigures

open Accounting Zone History Collectors Rates Collection Library.Scanf Library.RowTable
  Library.WordRatio

variable {w : Nat}

/-- The figure of the last line that has it, in kilobytes. -/
def lastFigure (f : Figure) (lines : List Bytes) : Option Nat :=
  (((lines.filterMap readFigure).filter fun r => r.1 = f).getLast?).map Prod.snd

theorem get_store (s : SystemMetric w) (value : BitVec w) (f g : Figure) :
    Figure.get (f.store s value) g = if g = f then value else Figure.get s g := by
  cases f <;> cases g <;> rfl

theorem lastFigure_append (f : Figure) (lines : List Bytes) (line : Bytes) :
    lastFigure f (lines ++ [line]) = match readFigure line with
      | none => lastFigure f lines
      | some (g, value) => if f = g then some value else lastFigure f lines := by
  rw [lastFigure, List.filterMap_append, lastFigure]
  cases hLine : readFigure line with
  | none => simp [hLine]
  | some r =>
    obtain ⟨g, value⟩ := r
    by_cases hSame : f = g
    · simp [hLine, hSame]
    · simp [hLine, hSame, Ne.symm hSame]

/-- A figure is that of the last line that has it, or what it was. -/
theorem get_foldl_storeFigure (s : SystemMetric w) (lines : List Bytes) (f : Figure) :
    Figure.get (lines.foldl storeFigure s) f = match lastFigure f lines with
      | none => Figure.get s f
      | some value => toWord (long value * 1024) := by
  induction lines using List.reverseRecOn with
  | nil => rfl
  | append_singleton lines line ih =>
    rw [List.foldl_append, List.foldl_cons, List.foldl_nil, storeFigure, lastFigure_append]
    cases readFigure line with
    | none => exact ih
    | some r =>
      obtain ⟨g, value⟩ := r
      simp only [get_store]
      split
      · rfl
      · exact ih

theorem get_collectMeminfo (hw : w ≤ 64) {file : Option Bytes} {buf : Bytes}
    (hFile : readFile file 8192 = some buf) {f : Figure} {value : Nat}
    (hFigure : lastFigure f (lines buf) = some value) (sh : Shctx w) :
    (Figure.get (collectMeminfo file sh).system f).toNat = value * 1024 % 2 ^ w := by
  have hWord : toWord (long value * 1024) = BitVec.ofNat w (value * 1024) := toWord_scaled hw value 1024
  rw [collectMeminfo]
  simp only [hFile, get_foldl_storeFigure, hFigure]
  rw [hWord, BitVec.toNat_ofNat]

/-- The percentage in use of the kernel's own numbers. -/
def truePct (whole part : Nat) : ℚ := 100 * ((whole : ℚ) - part) / whole

/-- The part does not exceed the whole, and the percentage is the true one. -/
structure Shows (total part : BitVec w) (whole kernelPart : Nat) : Prop where
  le : part.toNat ≤ total.toNat
  pct : usedPct total part = truePct whole kernelPart
  range : 0 ≤ usedPct total part ∧ usedPct total part ≤ 100

theorem truePct_scaled (whole part : Nat) : truePct (whole * 1024) (part * 1024) = truePct whole part := by
  rw [truePct, truePct]
  push_cast
  rw [← sub_mul, ← mul_assoc]
  exact mul_div_mul_right _ _ (by norm_num)

theorem truePct_range {whole part : Nat} (h : part ≤ whole) :
    0 ≤ truePct whole part ∧ truePct whole part ≤ 100 := by
  have hCast : (part : ℚ) ≤ whole := Nat.cast_le.mpr h
  have hPart : (0 : ℚ) ≤ part := Nat.cast_nonneg part
  have hWhole : (0 : ℚ) ≤ whole := Nat.cast_nonneg whole
  rw [truePct]
  constructor
  · exact div_nonneg (by linarith) hWhole
  · exact div_le_of_le_mul₀ hWhole (by norm_num) (by linarith)

theorem shows_iff {total part : BitVec w} {whole kernelPart : Nat} (hPart : kernelPart ≤ whole)
    (hTotal : total.toNat = whole * 1024 % 2 ^ w) (hStored : part.toNat = kernelPart * 1024 % 2 ^ w) :
    Shows total part whole kernelPart ↔ Proportional (2 ^ w) (whole * 1024) (kernelPart * 1024) := by
  have hBytes : kernelPart * 1024 ≤ whole * 1024 := Nat.mul_le_mul_right 1024 hPart
  have hPct : part.toNat ≤ total.toNat → usedPct total part =
      if 0 < whole * 1024 % 2 ^ w then
        ((whole * 1024 % 2 ^ w - kernelPart * 1024 % 2 ^ w : ℕ) : ℚ) * 100 / (whole * 1024 % 2 ^ w : ℕ)
      else 0 := by
    intro hLe
    rw [usedPct, BitVec.toNat_sub_of_le (BitVec.le_def.mpr hLe), hTotal, hStored]
  rw [← ratio_iff (Nat.two_pow_pos w) hBytes]
  change _ ↔ _ ∧ _ = truePct (whole * 1024) (kernelPart * 1024)
  rw [truePct_scaled]
  constructor
  · rintro ⟨hLe, hSame, -⟩
    rw [hPct hLe] at hSame
    rw [hTotal, hStored] at hLe
    exact ⟨hLe, hSame⟩
  · rintro ⟨hLe, hSame⟩
    rw [← hTotal, ← hStored] at hLe
    have hTrue : usedPct total part = truePct whole kernelPart := (hPct hLe).trans hSame
    exact ⟨hLe, hTrue, hTrue ▸ truePct_range hPart⟩

/-- The history samples repeat the percentages. -/
theorem recordedSample_pcts (conf : MainConf w) (clock : Clock w) (sh : Shctx w) :
    (recordedSample conf clock sh).memoryUsedPct = usedPct sh.system.memTotal sh.system.memAvailable ∧
      (recordedSample conf clock sh).swapUsedPct = usedPct sh.system.swapTotal sh.system.swapFree := by
  obtain ⟨_, _, hAverages⟩ := withAverages_writes
    (Channel.requests.rate conf clock sh) (Channel.responses.rate conf clock sh) sh
  rw [recordedSample, averaged_eq, hAverages]
  exact ⟨rfl, rfl⟩

/-- What `statvfs` promises: free blocks are blocks, and the sizes fit in 64 bits. -/
structure Plausible (st : Statvfs) : Prop where
  bfree : st.bfree.toNat ≤ st.blocks.toNat
  bavail : st.bavail.toNat ≤ st.bfree.toNat
  fits : st.blocks.toNat * st.frsize.toNat < 2 ^ 64

def totalBytes (st : Statvfs) : Nat := st.blocks.toNat * st.frsize.toNat

def freeBytes (st : Statvfs) : Nat := st.bfree.toNat * st.frsize.toNat

structure FsConsistent (m : FsMetric w) : Prop where
  used : m.used.toNat ≤ m.total.toNat
  sum : m.used.toNat + m.free.toNat = m.total.toNat

theorem fsConsistent_iff {r : FsReading} (hSt : Plausible r.st) (m : FsMetric w) :
    FsConsistent (storeFs r m) ↔ freeBytes r.st % 2 ^ w ≤ totalBytes r.st % 2 ^ w := by
  have hFree : freeBytes r.st ≤ totalBytes r.st := Nat.mul_le_mul_right _ hSt.bfree
  have hFits : totalBytes r.st < 2 ^ 64 := hSt.fits
  have hTotal64 : r.st.total.toNat = totalBytes r.st := by
    rw [Statvfs.total, BitVec.toNat_mul]
    exact Nat.mod_eq_of_lt hFits
  have hFree64 : r.st.freeBytes.toNat = freeBytes r.st := by
    rw [Statvfs.freeBytes, BitVec.toNat_mul]
    exact Nat.mod_eq_of_lt (hFree.trans_lt hFits)
  have hUsed64 : r.st.used.toNat = totalBytes r.st - freeBytes r.st := by
    have hLe : r.st.freeBytes ≤ r.st.total := by
      rw [BitVec.le_def, hTotal64, hFree64]
      exact hFree
    rw [Statvfs.used, BitVec.toNat_sub_of_le hLe, hTotal64, hFree64]
  have hTotal : (storeFs r m).total.toNat = totalBytes r.st % 2 ^ w := by
    rw [← hTotal64]
    exact BitVec.toNat_setWidth ..
  have hStored : (storeFs r m).free.toNat = freeBytes r.st % 2 ^ w := by
    rw [← hFree64]
    exact BitVec.toNat_setWidth ..
  have hUsed : (storeFs r m).used.toNat = (totalBytes r.st - freeBytes r.st) % 2 ^ w := by
    rw [← hUsed64]
    exact BitVec.toNat_setWidth ..
  rw [← rest_add_part_iff hFree, ← hTotal, ← hStored, ← hUsed]
  constructor
  · rintro ⟨hLe, hSum⟩
    exact ⟨hLe, hSum⟩
  · rintro ⟨hLe, hSum⟩
    exact ⟨hLe, hSum⟩

/-- The filesystems that the table is filled with. -/
def fsReadings (statvfs : Bytes → Option Statvfs) (stream : Bytes) : List FsReading :=
  stored filesystemsMax (readFs statvfs) (fgetsLines 4096 stream)

theorem readFs_statvfs {statvfs : Bytes → Option Statvfs} {line : Bytes} {r : FsReading}
    (h : readFs statvfs line = some r) : ∃ path, statvfs path = some r.st := by
  rw [readFs] at h
  split at h
  · cases h
  · rename_i mountPath fsType _
    split at h
    · cases h
    · split at h
      · cases h
      · split at h
        · cases h
        · rename_i st hSt
          split at h
          · cases h
          · obtain rfl := Option.some.inj h
            exact ⟨_, hSt⟩

theorem fsCount_collectFilesystems (hw : 6 ≤ w) (statvfs : Bytes → Option Statvfs) (stream : Bytes)
    (sh : Shctx w) : (collectFilesystems statvfs (some stream) sh).fsCount.toNat =
      (fsReadings statvfs stream).length := by
  have hLength : (fsReadings statvfs stream).length ≤ 32 := length_stored_le _
  have hWord : 2 ^ 6 ≤ 2 ^ w := Nat.pow_le_pow_right (by omega) hw
  simp only [collectFilesystems, readRows_zero, BitVec.toNat_ofNat]
  change (fsReadings statvfs stream).length % 2 ^ w = (fsReadings statvfs stream).length
  exact Nat.mod_eq_of_lt (by omega)

theorem filesystems_collectFilesystems (statvfs : Bytes → Option Statvfs) (stream : Bytes) (sh : Shctx w)
    {i : Nat} (hi : i < (fsReadings statvfs stream).length) :
    (collectFilesystems statvfs (some stream) sh).filesystems i =
      storeFs (fsReadings statvfs stream)[i] (sh.filesystems i) := by
  have hRow : (stored filesystemsMax (readFs statvfs) (fgetsLines 4096 stream))[i]? =
      some (fsReadings statvfs stream)[i] := List.getElem?_eq_getElem hi
  simp only [collectFilesystems, readRows_zero, hRow]

/-- Every row in use is consistent just when no reading loses a borrow. -/
theorem filesystems_consistent_iff (hw : 6 ≤ w) {statvfs : Bytes → Option Statvfs}
    (hStatvfs : ∀ path st, statvfs path = some st → Plausible st) (stream : Bytes) (sh : Shctx w) :
    (∀ i < (collectFilesystems statvfs (some stream) sh).fsCount.toNat,
        FsConsistent ((collectFilesystems statvfs (some stream) sh).filesystems i)) ↔
      ∀ r ∈ fsReadings statvfs stream, freeBytes r.st % 2 ^ w ≤ totalBytes r.st % 2 ^ w := by
  have hPlausible : ∀ r ∈ fsReadings statvfs stream, Plausible r.st := by
    intro r hr
    obtain ⟨line, -, hLine⟩ := List.mem_filterMap.mp (List.mem_of_mem_take hr)
    obtain ⟨path, hPath⟩ := readFs_statvfs hLine
    exact hStatvfs path r.st hPath
  rw [fsCount_collectFilesystems hw]
  constructor
  · intro h r hr
    obtain ⟨i, hi, rfl⟩ := List.mem_iff_getElem.mp hr
    have hRow := h i hi
    rw [filesystems_collectFilesystems statvfs stream sh hi] at hRow
    exact (fsConsistent_iff (hPlausible _ hr) _).mp hRow
  · intro h i hi
    rw [filesystems_collectFilesystems statvfs stream sh hi]
    exact (fsConsistent_iff (hPlausible _ (List.getElem_mem hi)) _).mpr (h _ (List.getElem_mem hi))

/-- The kernel's figures of memory and swap in a text, in kilobytes. -/
structure MemoryFigures (buf : Bytes) where
  memTotal : Nat
  memAvailable : Nat
  swapTotal : Nat
  swapFree : Nat
  readsMemTotal : lastFigure .memTotal (lines buf) = some memTotal
  readsMemAvailable : lastFigure .memAvailable (lines buf) = some memAvailable
  readsSwapTotal : lastFigure .swapTotal (lines buf) = some swapTotal
  readsSwapFree : lastFigure .swapFree (lines buf) = some swapFree
  available : memAvailable ≤ memTotal
  free : swapFree ≤ swapTotal

/-- The figures that are shown agree with the kernel's. -/
structure Consistent (sh : Shctx w) {buf : Bytes} (k : MemoryFigures buf) : Prop where
  memory : Shows sh.system.memTotal sh.system.memAvailable k.memTotal k.memAvailable
  swap : Shows sh.system.swapTotal sh.system.swapFree k.swapTotal k.swapFree
  samples : ∀ (conf : MainConf w) (clock : Clock w),
    (recordedSample conf clock sh).memoryUsedPct = truePct k.memTotal k.memAvailable ∧
      (recordedSample conf clock sh).swapUsedPct = truePct k.swapTotal k.swapFree
  filesystems : ∀ i < sh.fsCount.toNat, FsConsistent (sh.filesystems i)

/-- After a pass over both files the figures are consistent just when every cut
to a word keeps the ratio of a part to its whole, or loses no borrow. -/
theorem figures_consistent_iff (hw : 6 ≤ w) (hw' : w ≤ 64) {meminfo : Option Bytes} {buf : Bytes}
    (hFile : readFile meminfo 8192 = some buf) (k : MemoryFigures buf)
    {statvfs : Bytes → Option Statvfs} (hStatvfs : ∀ path st, statvfs path = some st → Plausible st)
    (stream : Bytes) (sh : Shctx w) :
    Consistent (collectFilesystems statvfs (some stream) (collectMeminfo meminfo sh)) k ↔
      Proportional (2 ^ w) (k.memTotal * 1024) (k.memAvailable * 1024) ∧
      Proportional (2 ^ w) (k.swapTotal * 1024) (k.swapFree * 1024) ∧
      ∀ r ∈ fsReadings statvfs stream, freeBytes r.st % 2 ^ w ≤ totalBytes r.st % 2 ^ w := by
  have hSystem : (collectFilesystems statvfs (some stream) (collectMeminfo meminfo sh)).system =
      (collectMeminfo meminfo sh).system := rfl
  have hMemory := shows_iff k.available (get_collectMeminfo hw' hFile k.readsMemTotal sh)
    (get_collectMeminfo hw' hFile k.readsMemAvailable sh)
  have hSwap := shows_iff k.free (get_collectMeminfo hw' hFile k.readsSwapTotal sh)
    (get_collectMeminfo hw' hFile k.readsSwapFree sh)
  have hFs := filesystems_consistent_iff hw hStatvfs stream (collectMeminfo meminfo sh)
  rw [← hMemory, ← hSwap, ← hFs]
  constructor
  · rintro ⟨hShows, hShows', -, hRows⟩
    exact ⟨hShows, hShows', hRows⟩
  · rintro ⟨hShows, hShows', hRows⟩
    refine ⟨hShows, hShows', fun conf clock => ?_, hRows⟩
    obtain ⟨hPct, hPct'⟩ := recordedSample_pcts conf clock
      (collectFilesystems statvfs (some stream) (collectMeminfo meminfo sh))
    rw [hPct, hPct', hSystem]
    exact ⟨hShows.pct, hShows'.pct⟩

def smallText : Bytes :=
  ascii "MemTotal: 1000 kB\nMemFree: 1 kB\nMemAvailable: 250 kB\nSwapTotal: 400 kB\nSwapFree: 100 kB\n"

def smallFigures : MemoryFigures smallText :=
  ⟨1000, 250, 400, 100, by decide +kernel, by decide +kernel, by decide +kernel, by decide +kernel,
    by decide, by decide⟩

def rootOnly (path : Bytes) : Option Statvfs :=
  if path = ascii "/" then some ⟨1000, 400, 300, 4096, 0, 0⟩ else none

theorem plausible_rootOnly (path : Bytes) (st : Statvfs) (h : rootOnly path = some st) : Plausible st := by
  rw [rootOnly] at h
  split at h
  · obtain rfl := Option.some.inj h
    exact ⟨by decide, by decide, by decide⟩
  · cases h

theorem small_figures_consistent :
    Consistent (collectFilesystems rootOnly (some (ascii "/dev/sda1 / ext4 rw 0 0\n"))
      (collectMeminfo (some smallText) (zeroedShctx : Shctx 32))) smallFigures := by
  have hFile : readFile (some smallText) 8192 = some smallText := by
    decide +kernel
  refine (figures_consistent_iff (by decide) (by decide) hFile smallFigures plausible_rootOnly _ _).mpr ?_
  exact ⟨proportional_of_lt (by decide) (by decide), proportional_of_lt (by decide) (by decide), by decide +kernel⟩

def largeText : Bytes :=
  ascii "MemTotal: 5242880 kB\nMemAvailable: 2097152 kB\nSwapTotal: 0 kB\nSwapFree: 0 kB\n"

def largeFigures : MemoryFigures largeText :=
  ⟨5242880, 2097152, 0, 0, by decide +kernel, by decide +kernel, by decide +kernel, by decide +kernel,
    by decide, by decide⟩

def largeRoot (path : Bytes) : Option Statvfs :=
  if path = ascii "/" then some ⟨1310720, 524288, 524288, 4096, 0, 0⟩ else none

def largeZone : Shctx 32 :=
  collectFilesystems largeRoot (some (ascii "/dev/sda1 / ext4 rw 0 0\n"))
    (collectMeminfo (some largeText) zeroedShctx)

/-- One gigabyte of memory is shown with two of them available, and one of a
filesystem with three of them used. -/
theorem large_figures_inconsistent : ¬ Consistent largeZone largeFigures ∧
    largeZone.system.memTotal = 1073741824 ∧ largeZone.system.memAvailable = 2147483648 ∧
    (largeZone.filesystems 0).total = 1073741824 ∧ (largeZone.filesystems 0).used = 3221225472 := by
  have hTotal : largeZone.system.memTotal = 1073741824 := by
    decide +kernel
  have hAvailable : largeZone.system.memAvailable = 2147483648 := by
    decide +kernel
  refine ⟨fun h => ?_, hTotal, hAvailable, by decide +kernel, by decide +kernel⟩
  have hLe := h.memory.le
  rw [hTotal, hAvailable] at hLe
  exact absurd hLe (by decide)

end HttpMonitoring.SystemFigures
