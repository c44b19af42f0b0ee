import HttpMonitoring.History
import HttpMonitoring.Library.RingIndex

/-!
# The history across a reload

A reload changes the capacity of the ring and clamps the count; the samples
stay in their slots. The list read after the reload is compared with the one
read before.
-/

namespace HttpMonitoring.Reload

open Accounting Zone History Library.RingIndex

variable {w : Nat}

/-- The states reached from a fresh zone, with the samples recorded so far.
Between two passes anything outside the ring may change. -/
inductive HistoryRun (conf : MainConf w) : List (HistorySample w) → Shctx w → Prop
  | fresh : HistoryRun conf [] (freshZone conf)
  | pass {samples : List (HistorySample w)} {sh : Shctx w} (earlier : HistoryRun conf samples sh)
      (clock : Clock w) (due : ¬ TooEarly conf (nowMsec clock) sh) :
      HistoryRun conf (samples ++ [recordedSample conf clock sh]) (collectHistory conf clock sh)
  | other {samples : List (HistorySample w)} {sh : Shctx w} (earlier : HistoryRun conf samples sh)
      (sh' : Shctx w) (same : ringCells sh' = ringCells sh) : HistoryRun conf samples sh'

/-- The slot of the `k`-th sample, for a counter that wraps at `2 ^ w`. -/
def slotOf (w capacity k : Nat) : Nat := k % 2 ^ w % capacity

/-- A slot was never written, or holds one of the samples written to it. -/
structure Holds (capacity : Nat) (samples : List (HistorySample w)) (r : RingCells w) : Prop where
  size : r.capacity.toNat = capacity
  write : r.write = BitVec.ofNat w samples.length
  count : r.count.toNat = min samples.length capacity
  slots : ∀ j, (r.samples j = zeroedSample ∧ ∀ k < samples.length, slotOf w capacity k ≠ j) ∨
    ∃ (k : Nat) (hk : k < samples.length), slotOf w capacity k = j ∧ r.samples j = samples[k]

theorem Holds.push {capacity : Nat} {samples : List (HistorySample w)} {r : RingCells w}
    (h : Holds capacity samples r) (hWord : capacity < 2 ^ w) (sample : HistorySample w) :
    Holds capacity (samples ++ [sample]) (r.push sample capacity) := by
  refine ⟨h.size, ?_, ?_, fun j => ?_⟩
  · simp [RingCells.push, h.write, BitVec.ofNat_add]
  · have hCount := h.count
    simp only [RingCells.push, List.length_append, List.length_singleton]
    split
    · rename_i hLess
      have hRoom : r.count.toNat + 1 < 2 ^ w := by omega
      have hOne : (r.count + 1).toNat = r.count.toNat + 1 := by
        rw [BitVec.toNat_add, BitVec.ofNat_eq_ofNat, BitVec.toNat_ofNat, Nat.add_mod_mod,
          Nat.mod_eq_of_lt hRoom]
      omega
    · omega
  · have hPosition : r.write.toNat % capacity = slotOf w capacity samples.length := by
      rw [h.write, BitVec.toNat_ofNat, slotOf]
    simp only [RingCells.push, hPosition, List.length_append, List.length_singleton]
    by_cases hj : j = slotOf w capacity samples.length
    · refine Or.inr ⟨samples.length, by omega, hj.symm, ?_⟩
      simp [hj]
    · rw [Function.update_of_ne hj]
      rcases h.slots j with ⟨hZero, hNone⟩ | ⟨k, hk, hSlot, hSample⟩
      · refine Or.inl ⟨hZero, fun k hk => ?_⟩
        rcases Nat.lt_succ_iff_lt_or_eq.mp hk with hk | rfl
        · exact hNone k hk
        · exact fun hSame => hj hSame.symm
      · refine Or.inr ⟨k, by omega, hSlot, ?_⟩
        rw [hSample, List.getElem_append_left hk]

theorem writerCapacity_eq {sh : Shctx w} {capacity : Nat} (h : sh.historyCapacity.toNat = capacity)
    (hPositive : 0 < capacity) (hMax : capacity ≤ historyMax) : writerCapacity sh = capacity := by
  rw [writerCapacity, h, if_neg (by omega)]

theorem HistoryRun.holds {conf : MainConf w} (hLess : historyCapacity conf < 2 ^ w)
    {samples : List (HistorySample w)} {sh : Shctx w} (h : HistoryRun conf samples sh) :
    Holds (historyCapacity conf) samples (ringCells sh) := by
  obtain ⟨hPositive, hMax⟩ := historyCapacity_bounds conf
  induction h with
  | fresh =>
    refine ⟨?_, rfl, ?_, fun j => Or.inl ⟨rfl, fun k hk => absurd hk (Nat.not_lt_zero k)⟩⟩
    · simp [ringCells, freshZone, Nat.mod_eq_of_lt hLess]
    · simp [ringCells, freshZone, zeroedShctx]
  | @pass samples sh _ clock hDue ih =>
    rw [ringCells_collectHistory hDue, writerCapacity_eq ih.size hPositive hMax]
    exact ih.push hLess _
  | other _ sh' hSame ih =>
    rw [hSame]
    exact ih

theorem Holds.slot_eq {capacity : Nat} {samples : List (HistorySample w)} {r : RingCells w}
    (h : Holds capacity samples r) (hDistinct : samples.Nodup) (hWritten : zeroedSample ∉ samples)
    {j k : Nat} (hk : k < samples.length)
    (hSame : r.samples j = r.samples (slotOf w capacity k)) : j = slotOf w capacity k := by
  rcases h.slots (slotOf w capacity k) with ⟨-, hNone⟩ | ⟨l, hl, hlSlot, hlSample⟩
  · exact absurd rfl (hNone k hk)
  · rcases h.slots j with ⟨hZero, -⟩ | ⟨m, hm, hmSlot, hmSample⟩
    · rw [hZero, hlSample] at hSame
      exact absurd (hSame ▸ List.getElem_mem hl) hWritten
    · rw [hmSample, hlSample] at hSame
      obtain rfl := (hDistinct.getElem_inj_iff).mp hSame
      exact hmSlot.symm.trans hlSlot

/-- The slot of the `i`-th of the last `m` samples under a capacity. -/
def lastSlot (w capacity counter m i : Nat) : Nat := (counter + capacity - m + i) % 2 ^ w % capacity

theorem ofNat_sub_ofNat {a b : Nat} (h : b ≤ a) :
    BitVec.ofNat w a - BitVec.ofNat w b = BitVec.ofNat w (a - b) := by
  rw [sub_eq_iff_eq_add, ← BitVec.ofNat_add, Nat.sub_add_cancel h]

theorem historySlot_eq {sh : Shctx w} (h : readerCount sh ≤ readerCapacity sh) (i : Nat) :
    historySlot sh i = lastSlot w (readerCapacity sh) sh.historyWrite.toNat (readerCount sh) i := by
  have hWord : sh.historyWrite + BitVec.ofNat w (readerCapacity sh) - BitVec.ofNat w (readerCount sh) +
      BitVec.ofNat w i =
      BitVec.ofNat w (sh.historyWrite.toNat + readerCapacity sh - readerCount sh + i) := by
    have hSelf : BitVec.ofNat w sh.historyWrite.toNat = sh.historyWrite := by simp
    conv_lhs => rw [← hSelf]
    rw [← BitVec.ofNat_add, ofNat_sub_ofNat (by omega), ← BitVec.ofNat_add]
  rw [historySlot, hWord, BitVec.toNat_ofNat, lastSlot]

theorem historySamples_eq {sh : Shctx w} {capacity count : Nat}
    (hCapacity : sh.historyCapacity.toNat = capacity) (hCount : sh.historyCount.toNat = count)
    (hPositive : 0 < capacity) (hMax : capacity ≤ historyMax) (hLe : count ≤ capacity) :
    historySamples sh = (List.range count).map fun i =>
      sh.history (lastSlot w capacity sh.historyWrite.toNat count i) := by
  have hReaderCapacity : readerCapacity sh = capacity := by
    rw [readerCapacity, hCapacity, Nat.min_eq_left hMax]
  have hReaderCount : readerCount sh = count := by
    rw [readerCount, hCount, Nat.min_eq_left (hLe.trans hMax)]
  rw [historySamples, if_neg (by omega), hReaderCount]
  apply List.map_congr_left
  intro i _
  rw [historySlot_eq (by omega), hReaderCapacity, hReaderCount]

/-- The reload branch of `init_shm` leaves the last samples, as many as the new
capacity holds. -/
def KeepsHistory (conf' : MainConf w) (sh : Shctx w) : Prop :=
  ∃ sh', initShm conf' (.reloaded sh) = some sh' ∧
    historySamples sh' = (historySamples sh).drop
      ((historySamples sh).length - min (historySamples sh).length (historyCapacity conf'))

def SameSlots (w capacity capacity' counter m : Nat) : Prop :=
  ∀ i < m, lastSlot w capacity' counter m i = lastSlot w capacity counter m i

instance (w capacity capacity' counter m : Nat) :
    Decidable (SameSlots w capacity capacity' counter m) :=
  inferInstanceAs (Decidable (∀ i < m, _ = _))

section Ring

variable {conf conf' : MainConf w} {samples : List (HistorySample w)} {sh : Shctx w}

theorem keepsHistory_iff (conf' : MainConf w) (hWord : historyMax < 2 ^ w)
    (h : Holds (historyCapacity conf) samples (ringCells sh)) :
    let m := min (min samples.length (historyCapacity conf)) (historyCapacity conf')
    KeepsHistory conf' sh ↔ ∀ i < m,
      sh.history (lastSlot w (historyCapacity conf') sh.historyWrite.toNat m i) =
        sh.history (lastSlot w (historyCapacity conf) sh.historyWrite.toNat m i) := by
  intro m
  obtain ⟨hPositive, hMax⟩ := historyCapacity_bounds conf
  obtain ⟨hPositive', hMax'⟩ := historyCapacity_bounds conf'
  have hCount : sh.historyCount.toNat = min samples.length (historyCapacity conf) := h.count
  have hCapacity : sh.historyCapacity.toNat = historyCapacity conf := h.size
  have hWritten : (adoptZone conf' sh).historyCount.toNat = m := by
    simp only [adoptZone]
    split
    · rw [BitVec.toNat_ofNat, Nat.mod_eq_of_lt (by omega)]
      omega
    · omega
  have hResized : (adoptZone conf' sh).historyCapacity.toNat = historyCapacity conf' := by
    simp [adoptZone, Nat.mod_eq_of_lt (by omega : historyCapacity conf' < 2 ^ w)]
  have hBefore := historySamples_eq hCapacity hCount hPositive hMax (by omega)
  have hAfter : historySamples (adoptZone conf' sh) = (List.range m).map fun i =>
      sh.history (lastSlot w (historyCapacity conf') sh.historyWrite.toNat m i) :=
    historySamples_eq hResized hWritten hPositive' hMax' (by omega)
  have hLength : (historySamples sh).length = min samples.length (historyCapacity conf) := by
    rw [hBefore, List.length_map, List.length_range]
  have hLast : (historySamples sh).drop
      ((historySamples sh).length - min (historySamples sh).length (historyCapacity conf')) =
      (List.range m).map fun i =>
        sh.history (lastSlot w (historyCapacity conf) sh.historyWrite.toNat m i) := by
    rw [hLength, hBefore]
    apply List.ext_getElem
    · simp only [List.length_drop, List.length_map, List.length_range]
      omega
    · intro i hi hi'
      simp only [List.length_map, List.length_range] at hi'
      simp only [List.getElem_drop, List.getElem_map, List.getElem_range, lastSlot]
      congr 3
      omega
  constructor
  · rintro ⟨sh', hInit, hSame⟩ i hi
    obtain rfl := Option.some.inj hInit
    rw [hAfter, hLast] at hSame
    have hAt := List.map_inj_left.mp hSame i (List.mem_range.mpr hi)
    exact hAt
  · intro hSame
    refine ⟨adoptZone conf' sh, rfl, ?_⟩
    rw [hAfter, hLast]
    exact List.map_congr_left fun i hi => hSame i (List.mem_range.mp hi)

theorem lastSlot_written (hWord : 2 * historyMax ≤ 2 ^ w) {capacity n m : Nat}
    (hPositive : 0 < capacity) (hMax : capacity ≤ historyMax) (hm : m ≤ min n capacity) {i : Nat}
    (hi : i < m) : ∃ k < n, slotOf w capacity k = lastSlot w capacity (n % 2 ^ w) m i := by
  rcases Nat.lt_or_ge n capacity with hShort | hFull
  · refine ⟨n - m + i, by omega, ?_⟩
    have hStart : n % 2 ^ w + capacity - m + i = capacity + (n - m + i) := by
      rw [Nat.mod_eq_of_lt (by omega)]
      omega
    rw [lastSlot, hStart, slotOf, Nat.mod_eq_of_lt (by omega : capacity + (n - m + i) < 2 ^ w),
      Nat.mod_eq_of_lt (by omega : n - m + i < 2 ^ w), Nat.add_mod_left]
  · have hSlot : lastSlot w capacity (n % 2 ^ w) m i < capacity := Nat.mod_lt _ hPositive
    have hBelow : capacity < 2 ^ w := by omega
    refine ⟨_, hSlot.trans_le hFull, ?_⟩
    rw [slotOf, Nat.mod_eq_of_lt (hSlot.trans hBelow), Nat.mod_eq_of_lt hSlot]

theorem sameSlots_of_keepsHistory (hWord : 2 * historyMax ≤ 2 ^ w)
    (h : Holds (historyCapacity conf) samples (ringCells sh)) (hDistinct : samples.Nodup)
    (hWritten : zeroedSample ∉ samples) {m : Nat}
    (hm : m ≤ min samples.length (historyCapacity conf))
    (hSame : ∀ i < m,
      sh.history (lastSlot w (historyCapacity conf') sh.historyWrite.toNat m i) =
        sh.history (lastSlot w (historyCapacity conf) sh.historyWrite.toNat m i)) :
    SameSlots w (historyCapacity conf) (historyCapacity conf') sh.historyWrite.toNat m := by
  obtain ⟨hPositive, hMax⟩ := historyCapacity_bounds conf
  have hCounter : sh.historyWrite.toNat = samples.length % 2 ^ w := by
    have hWrite : sh.historyWrite = BitVec.ofNat w samples.length := h.write
    rw [hWrite, BitVec.toNat_ofNat]
  intro i hi
  obtain ⟨k, hk, hSlot⟩ := lastSlot_written hWord hPositive hMax hm hi
  have hAt := hSame i hi
  rw [hCounter] at hAt ⊢
  rw [← hSlot] at hAt ⊢
  exact h.slot_eq hDistinct hWritten hk hAt

end Ring

/-- Equal capacities, a ring that neither capacity fills, or a ring that starts
at slot zero under both. -/
def Compatible (capacity capacity' n : Nat) : Prop :=
  capacity = capacity' ∨ n ≤ min capacity capacity' ∨
    (n % max capacity capacity' = min capacity capacity' ∧ n % min capacity capacity' = 0)

instance (capacity capacity' n : Nat) : Decidable (Compatible capacity capacity' n) :=
  inferInstanceAs (Decidable (_ ∨ _ ∨ _))

theorem lastSlot_eq_readSlot {capacity counter m i : Nat} (hm : m ≤ capacity) (hi : i < m)
    (hRoom : counter + capacity ≤ 2 ^ w) :
    lastSlot w capacity counter m i = readSlot capacity counter m i := by
  rw [lastSlot, readSlot, Nat.mod_eq_of_lt (by omega : counter + capacity - m + i < 2 ^ w)]

/-- As long as the counter is not about to wrap, the slots agree exactly under
compatible capacities. -/
theorem sameSlots_iff {capacity capacity' n : Nat} (hPositive : 0 < capacity)
    (hMax : capacity ≤ historyMax) (hPositive' : 0 < capacity') (hMax' : capacity' ≤ historyMax)
    (hRoom : n + historyMax ≤ 2 ^ w) :
    SameSlots w capacity capacity' n (min (min n capacity) capacity') ↔
      Compatible capacity capacity' n := by
  have hRead : SameSlots w capacity capacity' n (min (min n capacity) capacity') ↔
      ∀ i < min (min n capacity) capacity',
        readSlot capacity' n (min (min n capacity) capacity') i =
          readSlot capacity n (min (min n capacity) capacity') i := by
    constructor
    · intro h i hi
      rw [← lastSlot_eq_readSlot (w := w) (by omega) hi (by omega),
        ← lastSlot_eq_readSlot (w := w) (by omega) hi (by omega)]
      exact h i hi
    · intro h i hi
      rw [lastSlot_eq_readSlot (by omega) hi (by omega), lastSlot_eq_readSlot (by omega) hi (by omega)]
      exact h i hi
  have hCount : min n capacity = capacity ∨ (min n capacity = n ∧ n < capacity) := by omega
  have hAll : (min n capacity = n ∧ n ≤ capacity') ↔ n ≤ min capacity capacity' := by omega
  rw [hRead, forall_readSlot_iff hPositive hPositive' hCount, hAll]
  rfl

/-- A reload keeps the history when both readers use the same slots, and only
then if the recorded samples can be told apart. Before the counter of the
ring comes near its wrap the slots agree exactly under compatible capacities. -/
theorem reload_keeps_history (hWord : 2 * historyMax ≤ 2 ^ w) {conf : MainConf w}
    {samples : List (HistorySample w)} {sh : Shctx w} (h : HistoryRun conf samples sh)
    (conf' : MainConf w) :
    let slots := SameSlots w (historyCapacity conf) (historyCapacity conf') (samples.length % 2 ^ w)
      (min (min samples.length (historyCapacity conf)) (historyCapacity conf'))
    (slots → KeepsHistory conf' sh) ∧
      (samples.Nodup → zeroedSample ∉ samples → KeepsHistory conf' sh → slots) ∧
      (samples.length + historyMax ≤ 2 ^ w →
        (slots ↔ Compatible (historyCapacity conf) (historyCapacity conf') samples.length)) := by
  intro slots
  obtain ⟨hPositive, hMax⟩ := historyCapacity_bounds conf
  obtain ⟨hPositive', hMax'⟩ := historyCapacity_bounds conf'
  have hHolds := h.holds (by omega)
  have hCounter : sh.historyWrite.toNat = samples.length % 2 ^ w := by
    have hWrite : sh.historyWrite = BitVec.ofNat w samples.length := hHolds.write
    rw [hWrite, BitVec.toNat_ofNat]
  have hKeeps := keepsHistory_iff conf' (by omega) hHolds
  refine ⟨fun hSlots => ?_, fun hDistinct hWritten hKept => ?_, fun hRoom => ?_⟩
  · refine hKeeps.mpr (fun i hi => ?_)
    rw [hCounter, hSlots i hi]
  · have hSame := sameSlots_of_keepsHistory hWord hHolds hDistinct hWritten (by omega)
      (hKeeps.mp hKept)
    rwa [hCounter] at hSame
  · have hIff := sameSlots_iff hPositive hMax hPositive' hMax' hRoom
    have hSelf : samples.length % 2 ^ w = samples.length := Nat.mod_eq_of_lt (by omega)
    simp only [slots, hSelf]
    exact hIff

/-- A history of so many samples at the least resolution. -/
def confOf (samples : Nat) : MainConf 64 :=
  { withDefaults createMainConf with
    history := BitVec.ofNat 64 (100 * samples)
    resolution := 100 }

def zoneAfter (conf : MainConf 64) (seconds : List Int) : Shctx 64 :=
  seconds.foldl (fun sh sec => collectHistory conf ⟨sec, 0⟩ sh) (freshZone conf)

theorem historyRun_zoneAfter (conf : MainConf 64) (seconds : List Int)
    (h : ∀ i, ∀ hi : i < seconds.length, ¬ TooEarly conf (nowMsec ⟨seconds[i], 0⟩) (zoneAfter conf (seconds.take i))) :
    ∃ samples, HistoryRun conf samples (zoneAfter conf seconds) ∧ samples.length = seconds.length := by
  induction seconds using List.reverseRecOn with
  | nil => exact ⟨[], .fresh, rfl⟩
  | append_singleton seconds sec ih =>
    have hEarlier : ∀ i, ∀ hi : i < seconds.length,
        ¬ TooEarly conf (nowMsec ⟨seconds[i], 0⟩) (zoneAfter conf (seconds.take i)) := by
      intro i hi
      have hAt := h i (by rw [List.length_append]; omega)
      rwa [List.getElem_append_left hi, List.take_append_of_le_length hi.le] at hAt
    obtain ⟨samples, hRun, hLength⟩ := ih hEarlier
    have hLast := h seconds.length (by simp)
    rw [List.getElem_concat_length rfl, List.take_left] at hLast
    have hNext : zoneAfter conf (seconds ++ [sec]) = collectHistory conf ⟨sec, 0⟩ (zoneAfter conf seconds) := by
      rw [zoneAfter, List.foldl_append, List.foldl_cons, List.foldl_nil, zoneAfter]
    rw [hNext]
    refine ⟨_, .pass hRun ⟨sec, 0⟩ hLast, ?_⟩
    rw [List.length_append, List.length_append, hLength, List.length_singleton, List.length_singleton]

/-- Eight samples in a ring of two, which a reload then enlarges to three: the last
two stand in the slots where the reader of the larger ring looks for them. -/
theorem reload_keeps_history_wrapped_ring :
    KeepsHistory (confOf 3) (zoneAfter (confOf 2) [1, 2, 3, 4, 5, 6, 7, 8]) ∧
      (historySamples (adoptZone (confOf 3) (zoneAfter (confOf 2) [1, 2, 3, 4, 5, 6, 7, 8]))).map
        HistorySample.timestamp = [7, 8] := by
  obtain ⟨samples, hRun, hLength⟩ := historyRun_zoneAfter (confOf 2) [1, 2, 3, 4, 5, 6, 7, 8]
    (by decide +kernel)
  refine ⟨(reload_keeps_history (by decide) hRun (confOf 3)).1 ?_, by decide +kernel⟩
  rw [hLength]
  decide +kernel

/-- Three samples in a ring of two, which a reload then enlarges to three: the
reader meets a slot that was never written. -/
theorem reload_reads_unwritten_slot :
    ∃ samples, HistoryRun (confOf 2) samples (zoneAfter (confOf 2) [1, 2, 3]) ∧
      ¬ KeepsHistory (confOf 3) (zoneAfter (confOf 2) [1, 2, 3]) := by
  obtain ⟨samples, hRun, -⟩ := historyRun_zoneAfter (confOf 2) [1, 2, 3] (by decide +kernel)
  refine ⟨samples, hRun, ?_⟩
  rintro ⟨sh', hInit, hSame⟩
  obtain rfl := Option.some.inj hInit
  have hTimes := congrArg (List.map HistorySample.timestamp) hSame
  have hRead : (historySamples (adoptZone (confOf 3) (zoneAfter (confOf 2) [1, 2, 3]))).map
      HistorySample.timestamp = [2, 0] := by
    decide +kernel
  rw [hRead] at hTimes
  revert hTimes
  decide +kernel

end HttpMonitoring.Reload
