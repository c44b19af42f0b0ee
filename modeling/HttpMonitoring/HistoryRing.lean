import HttpMonitoring.Reload
import HttpMonitoring.JsonDocument

/-!
# What the history shows between two reloads

The writer of the ring and its reader agree: as long as the counter of the ring
has not come near its wrap, `json_history` emits the last samples in order.
-/

namespace HttpMonitoring.HistoryRing

open Accounting Zone History Reload JsonWriter JsonSections JsonDocument Library.RingIndex
  Library.BoundedWriter Library.JsonText

variable {w : Nat} {conf : MainConf w} {samples : List (HistorySample w)} {sh : Shctx w}

theorem holdsLast_of_run (h : HistoryRun conf samples sh)
    (hRoom : samples.length + historyCapacity conf < 2 ^ w) :
    HoldsLast (historyCapacity conf) samples sh.history := by
  obtain ⟨hPositive, hMax⟩ := historyCapacity_bounds conf
  induction h with
  | fresh => exact holdsLast_nil
  | @pass samples sh earlier clock hDue ih =>
    rw [List.length_append, List.length_singleton] at hRoom
    have hBefore := earlier.holds (by omega)
    have hWrite : sh.historyWrite.toNat = samples.length := by
      rw [show sh.historyWrite = BitVec.ofNat w samples.length from hBefore.write,
        BitVec.toNat_ofNat, Nat.mod_eq_of_lt (by omega)]
    have hCells := congrArg RingCells.samples (ringCells_collectHistory hDue)
    rw [writerCapacity_eq hBefore.size hPositive hMax] at hCells
    have hHistory : (collectHistory conf clock sh).history =
        Function.update sh.history (samples.length % historyCapacity conf)
          (recordedSample conf clock sh) := by
      rw [← hWrite]
      exact hCells
    rw [hHistory]
    exact (ih (by omega)).push _
  | other _ sh' hSame ih =>
    rw [show sh'.history = _ from congrArg RingCells.samples hSame]
    exact ih hRoom

structure Counters (capacity n : Nat) (sh : Shctx w) : Prop where
  write : sh.historyWrite.toNat = n
  count : readerCount sh = min n capacity
  reader : readerCapacity sh = capacity
  writer : writerCapacity sh = capacity

theorem counters_of_run (h : HistoryRun conf samples sh)
    (hRoom : samples.length + historyCapacity conf < 2 ^ w) :
    Counters (historyCapacity conf) samples.length sh := by
  obtain ⟨hPositive, hMax⟩ := historyCapacity_bounds conf
  have hHolds := h.holds (by omega)
  have hSize : sh.historyCapacity.toNat = historyCapacity conf := hHolds.size
  have hCount : sh.historyCount.toNat = min samples.length (historyCapacity conf) := hHolds.count
  have hWrite : sh.historyWrite = BitVec.ofNat w samples.length := hHolds.write
  refine ⟨?_, ?_, ?_, writerCapacity_eq hSize hPositive hMax⟩
  · rw [hWrite, BitVec.toNat_ofNat, Nat.mod_eq_of_lt (by omega)]
  · rw [readerCount, hCount]
    omega
  · rw [readerCapacity, hSize, Nat.min_eq_left hMax]

/-- The word that `json_history` reduces to a slot, as a natural. -/
theorem readerWord_toNat {capacity n : Nat} (h : Counters capacity n sh)
    (hRoom : n + capacity < 2 ^ w) {i : Nat} (hi : i < readerCount sh) :
    (sh.historyWrite + BitVec.ofNat w (readerCapacity sh) - BitVec.ofNat w (readerCount sh) +
      BitVec.ofNat w i).toNat =
        sh.historyWrite.toNat + readerCapacity sh - readerCount sh + i := by
  have hWrite := h.write
  have hCount := h.count
  have hReader := h.reader
  have hSelf : BitVec.ofNat w sh.historyWrite.toNat = sh.historyWrite := by simp
  rw [← hSelf, ← BitVec.ofNat_add, ofNat_sub_ofNat (by omega), ← BitVec.ofNat_add,
    BitVec.toNat_ofNat, hSelf, Nat.mod_eq_of_lt (by omega)]

theorem historySamples_of_run (h : HistoryRun conf samples sh)
    (hRoom : samples.length + historyCapacity conf < 2 ^ w) :
    historySamples sh = samples.rtake (historyCapacity conf) := by
  obtain ⟨hPositive, hMax⟩ := historyCapacity_bounds conf
  have hCounters := counters_of_run h hRoom
  have hCount := hCounters.count
  rw [historySamples, if_neg (by rw [hCounters.reader]; omega)]
  have hSlots : ∀ i ∈ List.range (readerCount sh), sh.history (historySlot sh i) =
      sh.history (readSlot (historyCapacity conf) samples.length (readerCount sh) i) := by
    intro i hi
    rw [historySlot, readerWord_toNat hCounters hRoom (List.mem_range.mp hi), readSlot,
      hCounters.reader, hCounters.write]
  rw [List.map_congr_left hSlots, (holdsLast_of_run h hRoom).read (by omega) (by omega),
    List.rtake]
  congr 1
  omega

/-- Between two reloads `json_history` emits the last samples, oldest first; the
writer and the reader stay in the array, and the words of the reader neither
wrap nor fall below zero. -/
theorem jsonHistory_shows_last (h : HistoryRun conf samples sh)
    (hRoom : samples.length + historyCapacity conf < 2 ^ w) (R : Vslprintf w) (ok : Prop) :
    Renders ok (jsonHistory R sh)
        (Value.array ((samples.rtake (historyCapacity conf)).map (sampleValue R))).text ∧
      sh.historyWrite.toNat % writerCapacity sh < historyMax ∧
      readerCount sh ≤ sh.historyWrite.toNat + readerCapacity sh ∧
      ∀ i < readerCount sh,
        (sh.historyWrite + BitVec.ofNat w (readerCapacity sh) - BitVec.ofNat w (readerCount sh) +
            BitVec.ofNat w i).toNat =
          sh.historyWrite.toNat + readerCapacity sh - readerCount sh + i ∧
        historySlot sh i < historyMax := by
  obtain ⟨hPositive, hMax⟩ := historyCapacity_bounds conf
  have hCounters := counters_of_run h hRoom
  have hCount := hCounters.count
  have hReader := hCounters.reader
  refine ⟨?_, ?_, by omega, fun i hi => ⟨readerWord_toNat hCounters hRoom hi, ?_⟩⟩
  · rw [← historySamples_of_run h hRoom]
    exact renders_history R sh
  · rw [hCounters.writer]
    exact (Nat.mod_lt _ hPositive).trans_le hMax
  · rw [historySlot, hReader]
    exact (Nat.mod_lt _ hPositive).trans_le hMax

/-- Three passes over a ring of two samples. -/
theorem jsonHistory_shows_last_two : ∃ samples,
    HistoryRun (confOf 2) samples (zoneAfter (confOf 2) [1, 2, 3]) ∧
      samples.length + historyCapacity (confOf 2) < 2 ^ 64 ∧ ∀ (R : Vslprintf 64) (ok : Prop),
      Renders ok (jsonHistory R (zoneAfter (confOf 2) [1, 2, 3]))
        (Value.array ((samples.rtake (historyCapacity (confOf 2))).map (sampleValue R))).text := by
  have hOne : HistoryRun (confOf 2) _ (zoneAfter (confOf 2) [1]) :=
    .pass .fresh ⟨1, 0⟩ (by decide +kernel)
  have hTwo : HistoryRun (confOf 2) _ (zoneAfter (confOf 2) [1, 2]) :=
    .pass hOne ⟨2, 0⟩ (by decide +kernel)
  have hThree : HistoryRun (confOf 2) _ (zoneAfter (confOf 2) [1, 2, 3]) :=
    .pass hTwo ⟨3, 0⟩ (by decide +kernel)
  have hRoom : 3 + historyCapacity (confOf 2) < 2 ^ 64 := by decide +kernel
  exact ⟨_, hThree, hRoom, fun R ok => (jsonHistory_shows_last hThree hRoom R ok).1⟩

end HttpMonitoring.HistoryRing
