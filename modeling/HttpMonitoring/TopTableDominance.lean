import HttpMonitoring.TopTableTotals
import HttpMonitoring.Library.CounterTable

/-!
# Which keys stay in a table

A run of `update_top` is a run of bounded counters for the identities of the
keys. What the counters keep of a frequent key is kept by the table.
-/

namespace HttpMonitoring.TopTable

open Library.CString Library.SlotTable Library.CounterTable

variable {w : Nat} (crc32 : Bytes → BitVec 32) {capacity : Nat}

noncomputable def countsOf (capacity : Nat) (entries : Nat → TopEntry w) : KeyId →₀ ℕ :=
  ∑ i ∈ Finset.range capacity, Finsupp.single (entryId (entries i)) (entries i).hits.toNat

theorem countsOf_apply (entries : Nat → TopEntry w) (id : KeyId) : countsOf capacity entries id =
    ∑ i ∈ Finset.range capacity, if entryId (entries i) = id then (entries i).hits.toNat else 0 := by
  rw [countsOf, Finsupp.finsetSum_apply]
  exact Finset.sum_congr rfl fun i _ => Finsupp.single_apply

theorem countsOf_update (entries : Nat → TopEntry w) {i : Nat} (hi : i < capacity) (e : TopEntry w) :
    countsOf capacity (Function.update entries i e) +
        Finsupp.single (entryId (entries i)) (entries i).hits.toNat =
      countsOf capacity entries + Finsupp.single (entryId e) e.hits.toNat := by
  have hMem : i ∈ Finset.range capacity := Finset.mem_range.mpr hi
  have hRest : ∑ j ∈ (Finset.range capacity).erase i, Finsupp.single
        (entryId (Function.update entries i e j)) (Function.update entries i e j).hits.toNat =
      ∑ j ∈ (Finset.range capacity).erase i,
        Finsupp.single (entryId (entries j)) (entries j).hits.toNat := by
    refine Finset.sum_congr rfl fun j hj => ?_
    rw [Function.update_of_ne (Finset.ne_of_mem_erase hj)]
  rw [countsOf, countsOf, ← Finset.add_sum_erase _ _ hMem, ← Finset.add_sum_erase _ _ hMem, hRest,
    Function.update_self]
  ac_rfl

theorem countsOf_absent {entries : Nat → TopEntry w} {id : KeyId}
    (h : Absent capacity entries id) : countsOf capacity entries id = 0 := by
  rw [countsOf_apply]
  refine Finset.sum_eq_zero fun i hi => ?_
  split
  · rename_i hSame
    by_contra hHits
    exact h i (Finset.mem_range.mp hi) ((occupied_iff_toNat _).mpr hHits) hSame
  · rfl

theorem slot_of_countsOf {entries : Nat → TopEntry w} {id : KeyId}
    (h : countsOf capacity entries id ≠ 0) :
    ∃ i < capacity, Occupied (entries i) ∧ entryId (entries i) = id := by
  rw [countsOf_apply] at h
  obtain ⟨i, hi, hCount⟩ := Finset.exists_ne_zero_of_sum_ne_zero h
  split at hCount
  · rename_i hSame
    exact ⟨i, Finset.mem_range.mp hi, (occupied_iff_toNat _).mpr hCount, hSame⟩
  · exact absurd rfl hCount

section Slots

variable {σ : Ledger w} {n made : Nat} (h : Counts capacity σ n made)
include h

theorem Counts.hits_le {i : Nat} (hi : i < n) (hMade : made < 2 ^ w) :
    (σ.entries i).hits.toNat ≤ made := by
  have hTotals := congrArg Prod.fst (h.totals i hi)
  have hLength := h.short (entryId (σ.entries i))
  have hHits : (σ.entries i).hits = ((σ.since (entryId (σ.entries i))).length : BitVec w) :=
    hTotals.trans (sumTotals_hits _)
  rw [hHits, toNat_natCast_of_lt (hLength.trans_lt hMade)]
  exact hLength

/-- Occupied slots have different identities, so each count is that of a slot. -/
theorem Counts.countsOf_slot {i : Nat} (hi : i < n) :
    countsOf capacity σ.entries (entryId (σ.entries i)) = (σ.entries i).hits.toNat := by
  have hiCap := hi.trans_le h.le
  rw [countsOf_apply, Finset.sum_eq_single i]
  · rw [if_pos rfl]
  · intro j hj hNe
    split
    · rename_i hSame
      by_contra hHits
      have hjLess := (h.occupied j (Finset.mem_range.mp hj)).mp ((occupied_iff_toNat _).mpr hHits)
      exact hNe (h.distinct j hjLess i hi hSame)
    · rfl
  · intro hOut
    exact absurd (Finset.mem_range.mpr hiCap) hOut

theorem Counts.support_countsOf :
    (countsOf capacity σ.entries).support =
      (Finset.range n).image fun i => entryId (σ.entries i) := by
  ext id
  rw [Finsupp.mem_support_iff, Finset.mem_image]
  constructor
  · intro hCount
    obtain ⟨i, hi, hOccupied, hSame⟩ := slot_of_countsOf hCount
    exact ⟨i, Finset.mem_range.mpr ((h.occupied i hi).mp hOccupied), hSame⟩
  · rintro ⟨i, hi, rfl⟩
    have hLess := Finset.mem_range.mp hi
    rw [h.countsOf_slot hLess]
    exact (occupied_iff_toNat _).mp ((h.occupied i (hLess.trans_le h.le)).mpr hLess)

theorem Counts.card_countsOf : (countsOf capacity σ.entries).support.card = n := by
  rw [h.support_countsOf, Finset.card_image_of_injOn, Finset.card_range]
  intro i hi j hj hSame
  exact h.distinct i (Finset.mem_range.mp hi) j (Finset.mem_range.mp hj) hSame

end Slots

theorem hits_applyOps {ops : List (EntryOp w)} {c : TopCall w} (hOps : opsTotals ops = callTotals c)
    (e : TopEntry w) : (applyOps ops e).hits = e.hits + 1 := by
  have hCounters := congrArg Prod.fst (counters_applyOps ops e)
  rw [hOps] at hCounters
  exact hCounters

theorem toNat_hits_found (c : TopCall w) {e : TopEntry w} (h : e.hits.toNat + 1 < 2 ^ w) :
    (applyOps (foundOps c) e).hits.toNat = e.hits.toNat + 1 := by
  have hWord : 1 < 2 ^ w := by omega
  have hOne : (1 : BitVec w).toNat = 1 := Nat.mod_eq_of_lt hWord
  rw [hits_applyOps (opsTotals_foundOps c), BitVec.toNat_add, hOne, Nat.mod_eq_of_lt h]

theorem toNat_hits_fresh (c : TopCall w) (h : 1 < 2 ^ w) :
    (applyOps (freshOps c) (freshEntry crc32 c)).hits.toNat = 1 := by
  have hZero : (freshEntry crc32 c).hits = 0 := rfl
  rw [hits_applyOps (opsTotals_freshOps c), hZero, zero_add, BitVec.ofNat_eq_ofNat, BitVec.toNat_ofNat,
    Nat.mod_eq_of_lt h]

theorem Counts.access {σ : Ledger w} {n made : Nat} (h : Counts capacity σ n made) {c : TopCall w}
    (hNul : (0 : UInt8) ∉ c.key) (hMade : made + 1 < 2 ^ w) {entries' : Nat → TopEntry w}
    (hUpdates : Updates crc32 capacity σ.entries c entries') :
    Access capacity (countsOf capacity σ.entries) (keyId crc32 c.key) (countsOf capacity entries') := by
  have hFreshId : entryId (applyOps (freshOps c) (freshEntry crc32 c)) = keyId crc32 c.key := by
    rw [entryId_applyOps, entryId_freshEntry crc32 hNul]
  cases hUpdates with
  | found i hi hOccupied hSame =>
    have hLess : i < n := (h.occupied i hi).mp hOccupied
    have hHits := toNat_hits_found c (Nat.lt_of_le_of_lt (Nat.succ_le_succ
      (h.hits_le hLess (by omega))) hMade)
    have hSum := countsOf_update σ.entries hi (applyOps (foundOps c) (σ.entries i))
    rw [entryId_applyOps, hHits, Finsupp.single_add, add_left_comm, add_comm, add_right_inj, hSame] at hSum
    rw [hSum]
    refine .hit ?_
    rw [← hSame, h.countsOf_slot hLess]
    exact (occupied_iff_toNat _).mp hOccupied
  | filled i hi hAbsent hEmpty hFirst =>
    have hZero : (σ.entries i).hits.toNat = 0 := by
      by_contra hHits
      exact hEmpty ((occupied_iff_toNat _).mpr hHits)
    have hSum := countsOf_update σ.entries hi (applyOps (freshOps c) (freshEntry crc32 c))
    rw [hFreshId, toNat_hits_fresh crc32 c (by omega), hZero, Finsupp.single_zero, add_zero] at hSum
    rw [hSum]
    refine .fill (countsOf_absent hAbsent) ?_
    rw [h.card_countsOf]
    refine lt_of_le_of_ne h.le fun hFull => hEmpty ((h.occupied i hi).mpr ?_)
    omega
  | evicted i hi hAbsent hFull hLeast hFirst =>
    have hLess : i < n := (h.occupied i hi).mp (hFull i hi)
    have hAll : n = capacity := by
      refine Nat.le_antisymm h.le (Nat.le_of_not_lt fun hRoom => ?_)
      exact absurd ((h.occupied n hRoom).mp (hFull n hRoom)) (Nat.lt_irrefl n)
    have hSum := countsOf_update σ.entries hi (applyOps (freshOps c) (freshEntry crc32 c))
    have hSplit := Finsupp.erase_add_single (entryId (σ.entries i)) (countsOf capacity σ.entries)
    rw [h.countsOf_slot hLess] at hSplit
    rw [hFreshId, toNat_hits_fresh crc32 c (by omega), ← hSplit, add_right_comm, add_left_inj] at hSum
    rw [hSum]
    refine .evict (entryId (σ.entries i)) (countsOf_absent hAbsent) (h.card_countsOf.trans hAll) ?_ ?_
    · rw [h.countsOf_slot hLess]
      exact (occupied_iff_toNat _).mp (hFull i hi)
    · intro id hId
      obtain ⟨j, hj, hOccupied, rfl⟩ := slot_of_countsOf hId
      rw [h.countsOf_slot hLess, h.countsOf_slot ((h.occupied j hj).mp hOccupied)]
      exact hLeast j hj

def accessedIds (calls : List (TopCall w)) : List KeyId :=
  (calls.filter fun c => c.key ≠ []).map fun c => keyId crc32 c.key

theorem run_countsOf (hCapacity : 0 < capacity) (calls : List (TopCall w))
    (hNul : ∀ c ∈ calls, (0 : UInt8) ∉ c.key) (hCalls : calls.length < 2 ^ w) :
    Run capacity (accessedIds crc32 calls) (countsOf capacity (topRun crc32 capacity calls)) := by
  induction calls using List.reverseRecOn with
  | nil =>
    have hZero : countsOf capacity (topRun crc32 capacity ([] : List (TopCall w))) = 0 := by
      refine Finset.sum_eq_zero fun i _ => ?_
      show Finsupp.single _ (0 : BitVec w).toNat = 0
      simp
    rw [hZero]
    exact .nil
  | append_singleton calls c ih =>
    rw [List.length_append, List.length_singleton] at hCalls
    have hEarlier := ih (fun d hd => hNul d (List.mem_append_left _ hd)) (by omega)
    have hc : (0 : UInt8) ∉ c.key := hNul c (by simp)
    have hLast : topRun crc32 capacity (calls ++ [c]) =
        updateTop crc32 true (topRun crc32 capacity calls) capacity c := by
      simp [topRun]
    rw [hLast]
    by_cases hKey : c.key = []
    · rw [updateTop_nil crc32 true _ capacity hKey]
      simpa [accessedIds, List.filter_append, hKey] using hEarlier
    · obtain ⟨n, hCounts⟩ := counts_ledger crc32 hCapacity calls
        (fun d hd => hNul d (List.mem_append_left _ hd)) (by omega)
      have hUpdates := updateTop_updates crc32 hCounts.plain hCapacity hKey hc
      have hAccess := hCounts.access crc32 hc hCalls hUpdates
      rw [ledger_entries] at hAccess
      have hIds : accessedIds crc32 (calls ++ [c]) = accessedIds crc32 calls ++ [keyId crc32 c.key] := by
        simp [accessedIds, List.filter_append, hKey]
      rw [hIds]
      exact .snoc hEarlier hAccess

theorem keyId_of_short {key : Bytes} (h : key.length < keyLen) : keyId crc32 key = (hash crc32 key, key) := by
  have hAll : storedLen key = key.length := Nat.min_eq_left (Nat.le_sub_one_of_lt h)
  rw [keyId, hAll, List.take_length]

theorem keyId_inj_of_short {key key' : Bytes} (h : key.length < keyLen) (h' : key'.length < keyLen) :
    keyId crc32 key = keyId crc32 key' ↔ key = key' := by
  rw [keyId_of_short crc32 h, keyId_of_short crc32 h']
  constructor
  · intro hSame
    exact (Prod.mk.inj hSame).2
  · rintro rfl
    rfl

def callsWith (key : Bytes) (calls : List (TopCall w)) : Nat := calls.countP fun c => c.key = key

def callsWithOthers (key : Bytes) (calls : List (TopCall w)) : Nat :=
  calls.countP fun c => c.key ≠ [] ∧ c.key ≠ key

theorem countP_accessedIds (p : KeyId → Bool) (calls : List (TopCall w)) :
    (accessedIds crc32 calls).countP p = calls.countP fun c => p (keyId crc32 c.key) && c.key ≠ [] := by
  rw [accessedIds, List.countP_map, List.countP_filter]
  rfl

/-- Keys of at most 127 bytes: a key is in the table when its calls outweigh
the square of the calls with other keys. -/
theorem frequent_key_listed {capacity : Nat} (calls : List (TopCall w))
    (hNul : ∀ c ∈ calls, (0 : UInt8) ∉ c.key) (hShort : ∀ c ∈ calls, c.key.length < keyLen)
    (hCalls : calls.length < 2 ^ w) {key : Bytes} (hKey : key ≠ [])
    (hOften : callsWithOthers key calls ^ 2 < 4 * (capacity - 1) * callsWith key calls) :
    ∃ i < capacity, Occupied (topRun crc32 capacity calls i) ∧
      text (topRun crc32 capacity calls i).key = key := by
  have hCapacity : 0 < capacity := by
    by_contra hZero
    have hNone : 4 * (capacity - 1) = 0 := by omega
    rw [hNone, Nat.zero_mul] at hOften
    exact absurd hOften (Nat.not_lt_zero _)
  have hCalled : 0 < callsWith key calls := by
    by_contra hNever
    rw [Nat.eq_zero_of_not_pos hNever, Nat.mul_zero] at hOften
    exact absurd hOften (Nat.not_lt_zero _)
  obtain ⟨d, hd, hdKey⟩ := List.countP_pos_iff.mp hCalled
  have hLength : key.length < keyLen := of_decide_eq_true hdKey ▸ hShort d hd
  have hSame : ∀ c ∈ calls, keyId crc32 c.key = keyId crc32 key ↔ c.key = key := fun c hc =>
    keyId_inj_of_short crc32 (hShort c hc) hLength
  have hOwn : (accessedIds crc32 calls).countP (· = keyId crc32 key) = callsWith key calls := by
    rw [countP_accessedIds, callsWith]
    refine List.countP_congr fun c hc => ?_
    have hNonempty : c.key = key → c.key ≠ [] := fun h => h ▸ hKey
    simpa [hSame c hc] using hNonempty
  have hForeign : (accessedIds crc32 calls).countP (· ≠ keyId crc32 key) = callsWithOthers key calls := by
    rw [countP_accessedIds, callsWithOthers]
    refine List.countP_congr fun c hc => ?_
    simp [hSame c hc, and_comm]
  rw [← hOwn, ← hForeign] at hOften
  obtain ⟨i, hi, hOccupied, hId⟩ := slot_of_countsOf
    ((run_countsOf crc32 hCapacity calls hNul hCalls).held hOften)
  rw [keyId_of_short crc32 hLength] at hId
  exact ⟨i, hi, hOccupied, congrArg Prod.snd hId⟩

/-- The checksums of the three keys of the next examples. -/
def crc32OfLetters (key : Bytes) : BitVec 32 :=
  if key = ascii "/a" then 0x69707b5c else if key = ascii "/b" then 0xf0792ae6 else 0x877e1a70

def pageCall (key : String) : TopCall 64 := ⟨ascii key, 3, 120, false, 1710000000⟩

/-- Three calls fill one slot of two; the key of eight calls out of fifteen
shares the other one with a third key, which takes it over whenever the two
calls before it have not reached three hits. -/
def outvoted : List (TopCall 64) :=
  List.replicate 3 (pageCall "/b") ++
    (List.replicate 4 [pageCall "/a", pageCall "/a", pageCall "/c"]).flatten

theorem dominant_key_evicted :
    (∀ c ∈ outvoted, (0 : UInt8) ∉ c.key ∧ c.key.length < keyLen) ∧
      outvoted.length < 2 * callsWith (ascii "/a") outvoted ∧
      ¬ ∃ i < 2, Occupied (topRun crc32OfLetters 2 outvoted i) ∧
        text (topRun crc32OfLetters 2 outvoted i).key = ascii "/a" := by
  refine ⟨by decide, by decide, ?_⟩
  decide +kernel

theorem frequent_key_listed_two_slots :
    let calls := [pageCall "/b", pageCall "/a", pageCall "/a", pageCall "/c"]
    ∃ i < 2, Occupied (topRun crc32OfLetters 2 calls i) ∧
      text (topRun crc32OfLetters 2 calls i).key = ascii "/a" := by
  refine frequent_key_listed crc32OfLetters _ (by decide) (by decide) (by decide) (by decide) ?_
  decide

end HttpMonitoring.TopTable
