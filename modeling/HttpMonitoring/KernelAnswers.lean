import HttpMonitoring.JsonStrings
import HttpMonitoring.KernelSnapshot
import HttpMonitoring.NameArrays
import HttpMonitoring.ReadAnswers
import HttpMonitoring.ServiceRuns
import HttpMonitoring.Throughput

/-!
# What the answers show of the kernel

The interfaces, disks and filesystems of an answer that is given behind a pass
are those that the kernel has printed.
-/

namespace HttpMonitoring.KernelAnswers

open Nginx Accounting Collectors SystemCollectors CollectorLock CollectorHandler ZoneRegions KernelTexts KernelSnapshot
  NameArrays JsonWriter JsonNames JsonDocument JsonAnswers Exchange Senders Handlers LiveStreamEvents WholeAnswers
  ReadAnswers Throughput Library.CString Library.JsonText Library.JsonEscape Library.JsonParser Library.LabelledLines
open JsonSections (sumIfaces sumDisks ifaceUp)

variable {w : Nat}

section Values

variable (R : Vslprintf w)

def number (n : Nat) : Value := word R (BitVec.ofNat w n)

def plain (name : Bytes) : Value := .string (escaped R name)

def shownIface (r : IfaceReading) (up : Bool) : Value :=
  fields ["name", "rx_bytes", "tx_bytes", "rx_packets", "tx_packets", "rx_errors", "tx_errors", "up"]
    [plain R r.name, number R r.rxBytes, number R r.txBytes, number R r.rxPackets, number R r.txPackets,
    number R r.rxErrs, number R r.txErrs, .bool up]

/-- The interfaces with the totals of their counters. -/
def shownNetwork (read : List IfaceReading) (up : Nat → Bool) : Value :=
  let total := fun value : IfaceReading → Nat => number R (read.map value).sum
  fields ["rx_bytes", "tx_bytes", "rx_packets", "tx_packets", "rx_errors", "tx_errors", "interfaces"]
    [total IfaceReading.rxBytes, total IfaceReading.txBytes, total IfaceReading.rxPackets,
    total IfaceReading.txPackets, total IfaceReading.rxErrs, total IfaceReading.txErrs,
    .array (read.mapIdx fun i r => shownIface R r (up i))]

def shownDevice (r : DiskReading) : Value :=
  fields ["name", "reads", "writes", "read_bytes", "write_bytes", "io_ms"]
    [plain R r.name, number R r.reads, number R r.writes, number R (r.sectorsRead * 512),
    number R (r.sectorsWritten * 512), number R r.ioMs]

/-- The mount point is cut to what its array has room for. -/
def shownFilesystem (r : FsReading) : Value :=
  fields ["path", "type", "total", "used", "free", "avail", "files", "files_free"]
    [plain R ((text r.mountPath).take (keyLen - 1)), plain R (text r.fsType), word R (toWord r.st.total),
    word R (toWord r.st.used), word R (toWord r.st.freeBytes), word R (toWord r.st.avail), word R (toWord r.st.files),
    word R (toWord r.st.ffree)]

def shownDisk (read : List DiskReading) (filesystems : List FsReading) : Value :=
  let total := fun value : DiskReading → Nat => number R (read.map value).sum
  fields ["reads", "writes", "read_bytes", "write_bytes", "devices", "filesystems"]
    [total DiskReading.reads, total DiskReading.writes, total fun r => r.sectorsRead * 512,
    total fun r => r.sectorsWritten * 512, .array (read.map (shownDevice R)),
    .array (filesystems.map (shownFilesystem R))]

end Values

theorem getElem?_filled {ρ τ : Type*} (store : ρ → τ → τ) (read : List ρ) (rows : Nat → τ) {i : Nat}
    (hi : i < read.length) :
    filled store read rows i = store read[i] (rows i) := by
  rw [filled, List.getElem?_eq_getElem hi]

theorem count_ofNat (hw : 6 ≤ w) {n : Nat} (hn : n ≤ 32) : (BitVec.ofNat w n).toNat = n := by
  have hWord : 2 ^ 6 ≤ 2 ^ w := Nat.pow_le_pow_right (by omega) hw
  rw [BitVec.toNat_ofNat, Nat.mod_eq_of_lt (by omega)]

theorem mapIdx_range_rows {ρ α : Type*} {read : List ρ} {f : Nat → α} {g : Nat → ρ → α}
    (h : ∀ i (hi : i < read.length), f i = g i read[i]) : (List.range read.length).map f = read.mapIdx g := by
  refine List.ext_getElem (by simp) fun i hi _ => ?_
  have hRow : i < read.length := by simpa using hi
  simp [h i hRow]

theorem map_range_rows {ρ α : Type*} {read : List ρ} {f : Nat → α} {g : ρ → α}
    (h : ∀ i (hi : i < read.length), f i = g read[i]) : (List.range read.length).map f = read.map g := by
  refine List.ext_getElem (by simp) fun i hi _ => ?_
  have hRow : i < read.length := by simpa using hi
  simp [h i hRow]

theorem text_stored (dst : Bytes) {name : Bytes} (hZero : (0 : UInt8) ∉ name) (hFits : name.length < nameLen) :
    text (cpystrn dst name nameLen) = name := by
  rw [text_cpystrn dst (by decide), text_of_not_mem hZero, List.take_of_length_le (by omega)]

section Shown

variable (R : Vslprintf w) (hw : 6 ≤ w) (hw' : w ≤ 64) {k : Kernel w} {before after : Shctx w}
include hw hw'

theorem networkValue_shown (h : k.ShownNetwork before after)
    (hNames : ∀ r ∈ k.readIfaces, (0 : UInt8) ∉ r.name ∧ r.name.length < nameLen) :
    ∃ up, networkValue R after = shownNetwork R k.readIfaces up := by
  have hLength : k.readIfaces.length ≤ 32 := List.length_take_le _ _
  have hCount : min after.ifaceCount.toNat ifacesMax = k.readIfaces.length := by
    rw [h.count, count_ofNat hw hLength]
    exact Nat.min_eq_left hLength
  choose flags hRows using h.rows
  have hRow : ∀ i (hi : i < k.readIfaces.length),
      after.ifaces i = { storeIface k.readIfaces[i] (before.ifaces i) with flags := flags i } := by
    intro i hi
    rw [hRows, getElem?_filled storeIface k.readIfaces before.ifaces hi]
  have hSum : ∀ (field : IfaceMetric w → BitVec w) (value : IfaceReading → Nat),
      (∀ r m flags, field { storeIface r m with flags := flags } = BitVec.ofNat w (value r)) →
      word R (sumIfaces after field) = number R (k.readIfaces.map value).sum := by
    intro field value hField
    have hMap : (List.range k.readIfaces.length).map (fun i => field (after.ifaces i)) =
        k.readIfaces.map fun r => BitVec.ofNat w (value r) :=
      map_range_rows fun i hi => by rw [hRow i hi, hField]
    rw [sumIfaces, hCount, hMap, sum_ofNat, number]
  have hValues : (List.range k.readIfaces.length).map (fun i => ifaceValue R (after.ifaces i)) =
      k.readIfaces.mapIdx fun i r => shownIface R r (ifaceUp (after.ifaces i)) := by
    refine mapIdx_range_rows fun i hi => ?_
    obtain ⟨hZero, hFits⟩ := hNames _ (List.getElem_mem hi)
    simp only [ifaceValue, shownIface, hRow i hi, storeIface, name, text_stored _ hZero hFits, toWord_long hw', number,
      plain]
  refine ⟨fun i => ifaceUp (after.ifaces i), ?_⟩
  rw [networkValue, shownNetwork, hCount, hValues, hSum _ IfaceReading.rxBytes, hSum _ IfaceReading.txBytes,
    hSum _ IfaceReading.rxPackets, hSum _ IfaceReading.txPackets, hSum _ IfaceReading.rxErrs,
    hSum _ IfaceReading.txErrs]
  all_goals exact fun r m flags => toWord_long hw' _

theorem diskValue_shown (statvfs : Bytes → Option Statvfs) (h : k.ShownSystem statvfs before after)
    (hNames : ∀ r ∈ k.readDisks, (0 : UInt8) ∉ r.name ∧ r.name.length < nameLen)
    (hTypes : ∀ r ∈ k.readFilesystems statvfs, (text r.fsType).length < nameLen) :
    diskValue R after = shownDisk R k.readDisks (k.readFilesystems statvfs) := by
  have hLength : k.readDisks.length ≤ 32 := List.length_take_le _ _
  have hSystems : (k.readFilesystems statvfs).length ≤ 32 := List.length_take_le _ _
  obtain ⟨hCountWord, hRows⟩ := Prod.mk.inj h.disks
  obtain ⟨hFsWord, hFsRows⟩ := Prod.mk.inj h.filesystems
  have hCount : min after.diskCount.toNat disksMax = k.readDisks.length := by
    rw [hCountWord, count_ofNat hw hLength]
    exact Nat.min_eq_left hLength
  have hFsCount : min after.fsCount.toNat filesystemsMax = (k.readFilesystems statvfs).length := by
    rw [hFsWord, count_ofNat hw hSystems]
    exact Nat.min_eq_left hSystems
  have hRow : ∀ i (hi : i < k.readDisks.length), after.disks i = storeDisk k.readDisks[i] (before.disks i) := by
    intro i hi
    rw [hRows, getElem?_filled storeDisk k.readDisks before.disks hi]
  have hFsRow : ∀ i (hi : i < (k.readFilesystems statvfs).length),
      after.filesystems i = storeFs (k.readFilesystems statvfs)[i] (before.filesystems i) := by
    intro i hi
    rw [hFsRows, getElem?_filled storeFs (k.readFilesystems statvfs) before.filesystems hi]
  have hSectors : ∀ n, toWord (long n * 512) = BitVec.ofNat w (n * 512) := fun n => toWord_scaled hw' n 512
  have hSum : ∀ (field : DiskMetric w → BitVec w) (value : DiskReading → Nat),
      (∀ r m, field (storeDisk r m) = BitVec.ofNat w (value r)) →
      word R (sumDisks after field) = number R (k.readDisks.map value).sum := by
    intro field value hField
    have hMap : (List.range k.readDisks.length).map (fun i => field (after.disks i)) =
        k.readDisks.map fun r => BitVec.ofNat w (value r) :=
      map_range_rows fun i hi => by rw [hRow i hi, hField]
    rw [sumDisks, hCount, hMap, sum_ofNat, number]
  have hValues : (List.range k.readDisks.length).map (fun i => deviceValue R (after.disks i)) =
      k.readDisks.map (shownDevice R) := by
    refine map_range_rows fun i hi => ?_
    obtain ⟨hZero, hFits⟩ := hNames _ (List.getElem_mem hi)
    simp only [deviceValue, shownDevice, hRow i hi, storeDisk, name, text_stored _ hZero hFits, toWord_long hw', number,
      hSectors, plain]
  have hFsValues : (List.range (k.readFilesystems statvfs).length).map
        (fun i => filesystemValue R (after.filesystems i)) =
      (k.readFilesystems statvfs).map (shownFilesystem R) := by
    refine map_range_rows fun i hi => ?_
    have hType : (text (k.readFilesystems statvfs)[i].fsType).take (nameLen - 1) = _ :=
      List.take_of_length_le (Nat.le_pred_of_lt (hTypes _ (List.getElem_mem hi)))
    simp only [filesystemValue, shownFilesystem, hFsRow i hi, storeFs, name, plain,
      text_cpystrn _ (by decide : 0 < keyLen), text_cpystrn _ (by decide : 0 < nameLen), hType]
  rw [diskValue, shownDisk, hCount, hFsCount, hValues, hFsValues, hSum _ DiskReading.reads, hSum _ DiskReading.writes,
    hSum _ fun r => r.sectorsRead * 512, hSum _ fun r => r.sectorsWritten * 512]
  · exact fun r m => hSectors _
  · exact fun r m => hSectors _
  · exact fun r m => toWord_long hw' _
  · exact fun r m => toWord_long hw' _

end Shown

theorem zero_notMem_readFile {file : Option Bytes} {size : Nat} {buf : Bytes} (h : readFile file size = some buf) :
    (0 : UInt8) ∉ buf := by
  cases file with
  | none => cases h
  | some content =>
    rw [readFile] at h
    split at h
    · cases h
    · obtain rfl := Option.some.inj h
      exact zero_notMem_text _

theorem zero_notMem_rows {α ρ : Type*} {parse : Bytes → Option ρ} {print : α → Bytes} {rows : List (Row α parse)}
    (h : (0 : UInt8) ∉ (rows.map (Row.text print)).flatMap fun line => line ++ [10]) {a : α}
    (hMem : a ∈ rows.filterMap Row.shown?) : (0 : UInt8) ∉ print a := by
  obtain ⟨r, hr, hShown⟩ := List.mem_filterMap.mp hMem
  have hText : Row.text print r = print a := by
    cases r with
    | shown b =>
      obtain rfl := Option.some.inj hShown
      rfl
    | other => cases hShown
  intro hZero
  refine h (List.mem_flatMap.mpr ⟨print a, List.mem_map.mpr ⟨r, hr, hText⟩, ?_⟩)
  exact List.mem_append_left _ hZero

section Names

variable {k : Kernel w} {s : Sources w} (hFills : k.Fills s)
include hFills

theorem names_readIfaces : ∀ r ∈ k.readIfaces, (0 : UInt8) ∉ r.name ∧ r.name.length < nameLen := by
  intro r hr
  obtain ⟨a, ha, rfl⟩ := List.mem_map.mp (List.mem_of_mem_take hr)
  have hZero := zero_notMem_rows (zero_notMem_readFile hFills.netDev) ha
  exact ⟨fun hMem => hZero (by simp [Iface.text, ifaceLine, hMem, show a.name = a.reading.name from rfl]),
    a.isName.fits⟩

theorem names_readDisks : ∀ r ∈ k.readDisks, (0 : UInt8) ∉ r.name ∧ r.name.length < nameLen := by
  intro r hr
  obtain ⟨a, ha, rfl⟩ := List.mem_map.mp (List.mem_of_mem_take hr)
  have hZero := zero_notMem_rows (zero_notMem_readFile hFills.diskstats) ha
  exact ⟨fun hMem => hZero (by simp [Disk.text, diskLine, hMem, show a.name = a.reading.name from rfl]), a.isName.fits⟩

end Names

theorem names_readFilesystems {k : Kernel w} {statvfs : Bytes → Option Statvfs} {r : FsReading}
    (h : r ∈ k.readFilesystems statvfs) : ∃ m ∈ k.mounts, text r.mountPath = m.mount ∧ text r.fsType = m.type := by
  obtain ⟨m, hm, hReading⟩ := List.mem_filterMap.mp (List.mem_of_mem_take h)
  refine ⟨m, hm, ?_⟩
  rw [Mount.reading] at hReading
  split at hReading
  · cases hReading
  · obtain ⟨st, -, hShown⟩ := Option.bind_eq_some_iff.mp hReading
    split at hShown
    · cases hShown
    · obtain rfl := Option.some.inj hShown
      exact ⟨Mount.text_terminated m.isMount.terminated, Mount.text_terminated m.isType.terminated⟩

/-- The names are without control bytes that have no escape of their own. -/
structure Legible (k : Kernel w) : Prop where
  ifaces : ∀ r ∈ k.readIfaces, ∀ c ∈ r.name, Printable c
  disks : ∀ r ∈ k.readDisks, ∀ c ∈ r.name, Printable c
  mounts : ∀ m ∈ k.mounts, (∀ c ∈ m.mount, Printable c) ∧ ∀ c ∈ m.type, Printable c

theorem finds_steps {k : Kernel w} {s : Sources w} (hFills : k.Fills s) (hLegible : Legible k) (conf : MainConf w) :
    ∀ x ∈ s.steps conf, Finds Printable x := by
  have hText : ∀ {name : Bytes}, (∀ c ∈ name, Printable c) → ∀ c ∈ text name, Printable c :=
    fun h c hc => h c (List.takeWhile_subset _ hc)
  have hDisks : Finds Printable (Step.diskstats (w := w) s.diskstats) := by
    intro buf hFile r hr
    obtain rfl := Option.some.inj (hFile.symm.trans hFills.diskstats)
    rw [stored_disks] at hr
    exact hText (hLegible.disks r hr)
  have hIfaces : Finds Printable (Step.network (w := w) s.netDev s.addresses) := by
    intro buf hFile r hr
    obtain rfl := Option.some.inj (hFile.symm.trans hFills.netDev)
    rw [stored_ifaces] at hr
    exact hText (hLegible.ifaces r hr)
  have hMounts : Finds Printable (Step.filesystems (w := w) s.statvfs s.mounts) := by
    intro stream hStream r hr
    obtain rfl := Option.some.inj (hStream.symm.trans hFills.mounts)
    rw [stored_mounts] at hr
    obtain ⟨m, hm, hMount, hType⟩ := names_readFilesystems hr
    rw [hMount, hType]
    exact hLegible.mounts m hm
  intro x hx
  rcases s.mem_steps hx with rfl | hx | rfl
  · trivial
  · simp only [Sources.systemSteps, List.mem_cons, List.not_mem_nil, or_false] at hx
    rcases hx with rfl | rfl | rfl | rfl | rfl | rfl | rfl | rfl | rfl
    · trivial
    · trivial
    · trivial
    · trivial
    · trivial
    · trivial
    · trivial
    · exact hDisks
    · exact hMounts
  · exact hIfaces

theorem section_mem_answer (R : Vslprintf w) (env : JsonSections.Env w) (sh : Shctx w)
    {endpoint : Endpoint} {shown : Section}
    (h : shown ∈ sections endpoint) :
    (ascii shown.key, shown.value R sh) ∈ answerMembers R env sh endpoint := by
  have hDocument : endpoint ≠ .health := by
    rintro rfl
    revert h
    cases shown <;> decide
  rw [answerMembers, if_neg hDocument]
  exact List.mem_append_right _ (List.mem_map.mpr ⟨shown, h, rfl⟩)

theorem legible_smallKernel : Legible smallKernel where
  ifaces := by decide +kernel
  disks := by decide +kernel
  mounts := by decide +kernel

def smallZone : Shctx 64 :=
  collect Library.Doubles.toNearest CollectorHandler.firstWorker smallSources (Zone.freshZone CollectorLock.conf64)

def smallState : State 64 := { freshState with mmcf := some { defaultMain with sh := some smallZone } }

theorem sendJson_accepted (uri : Bytes) {endpoint : Endpoint} {s : State 64} {sh : Shctx 64}
    (hZone : s.getShctx = some sh)
    (hWritten : (JsonSections.jsonDocument acceptingCore.vslprintf (env acceptingCore) sh endpoint
      (Library.BoundedWriter.Output.start JsonSections.jsonBuffer)).failed = false) :
    (sendJson acceptingCore (getRequest uri) endpoint s).1 = rcOk := by
  have hLogged : (s.log (.send (.json endpoint))).getShctx = some sh := hZone
  rw [sendJson, sendDocument]
  simp only [hLogged, hWritten]
  rfl

end HttpMonitoring.KernelAnswers
