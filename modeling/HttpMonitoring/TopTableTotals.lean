import HttpMonitoring.TopTable

/-!
# What the slots of a table count

Calls of `update_top`, one at a time, from a zeroed table. Beside the table a
run keeps, for every identity, the calls made since it was last inserted; the
slots are then compared with the totals over these calls.
-/

namespace HttpMonitoring.TopTable

open Library.CString Library.SlotTable

variable {w : Nat} (crc32 : Bytes → BitVec 32) (capacity : Nat)

def Occupied (e : TopEntry w) : Prop := e.hits ≠ 0

instance (e : TopEntry w) : Decidable (Occupied e) := inferInstanceAs (Decidable (e.hits ≠ 0))

/-- Slots are terminated, and a slot without hits is still zeroed. -/
def Plain (entries : Nat → TopEntry w) : Prop :=
  ∀ i < capacity, Terminated (entries i) ∧ (¬ Occupied (entries i) → entries i = zeroedEntry)

def Absent (entries : Nat → TopEntry w) (id : KeyId) : Prop :=
  ∀ i < capacity, Occupied (entries i) → entryId (entries i) ≠ id

instance (entries : Nat → TopEntry w) (id : KeyId) : Decidable (Absent capacity entries id) :=
  inferInstanceAs (Decidable (∀ i < capacity, Occupied (entries i) → entryId (entries i) ≠ id))

def Full (entries : Nat → TopEntry w) : Prop := ∀ i < capacity, Occupied (entries i)

inductive Updates (entries : Nat → TopEntry w) (c : TopCall w) : (Nat → TopEntry w) → Prop
  | found (i : Nat) (hi : i < capacity) (occupied : Occupied (entries i))
      (same : entryId (entries i) = keyId crc32 c.key) :
      Updates entries c (Function.update entries i (applyOps (foundOps c) (entries i)))
  | filled (i : Nat) (hi : i < capacity) (absent : Absent capacity entries (keyId crc32 c.key))
      (empty : ¬ Occupied (entries i)) (first : ∀ j < i, Occupied (entries j)) :
      Updates entries c (Function.update entries i (applyOps (freshOps c) (freshEntry crc32 c)))
  | evicted (i : Nat) (hi : i < capacity) (absent : Absent capacity entries (keyId crc32 c.key))
      (full : Full capacity entries)
      (least : ∀ j < capacity, (entries i).hits.toNat ≤ (entries j).hits.toNat)
      (first : ∀ j < i, (entries i).hits.toNat < (entries j).hits.toNat) :
      Updates entries c (Function.update entries i (applyOps (freshOps c) (freshEntry crc32 c)))

variable {capacity}

theorem occupied_iff_toNat (e : TopEntry w) : Occupied e ↔ e.hits.toNat ≠ 0 := by
  simp [Occupied, ← BitVec.toNat_inj]

theorem updateTop_updates {entries : Nat → TopEntry w} (hPlain : Plain capacity entries)
    (hCapacity : 0 < capacity) {c : TopCall w} (hKey : c.key ≠ []) (hNul : (0 : UInt8) ∉ c.key) :
    Updates crc32 capacity entries c (updateTop crc32 true entries capacity c) := by
  have hBlank : ∀ j < capacity, (entries j).hits.toNat = 0 →
      entryHolds crc32 c.key (entries j) = false := by
    intro j hj hZero
    rw [Bool.eq_false_iff, ne_eq, entryHolds_iff crc32 hNul (hPlain j hj).1,
      (hPlain j hj).2 (fun h => (occupied_iff_toNat _).mp h hZero)]
    exact entryId_zeroedEntry_ne crc32 hKey
  have hTop : ∀ j < capacity, (entries j).hits.toNat ≤ 2 ^ w - 1 := fun j _ =>
    Nat.le_sub_one_of_lt (entries j).hits.isLt
  have hSelects : Selects _ _ _ _ (chooseSlot crc32 entries capacity c.key) :=
    scan_selects hCapacity hTop hBlank
  have hGuard : ¬ (!true || c.key.length == 0 || capacity == 0) = true := by
    simp [hKey, Nat.ne_of_gt hCapacity]
  have hAbsent : (∀ j < capacity, entryHolds crc32 c.key (entries j) = false) →
      Absent capacity entries (keyId crc32 c.key) := by
    intro h j hj _ hSame
    have hHolds := (entryHolds_iff crc32 hNul (hPlain j hj).1).mpr hSame
    rw [h j hj] at hHolds
    cases hHolds
  rw [updateTop, if_neg hGuard]
  cases hChoice : chooseSlot crc32 entries capacity c.key with
  | found i =>
    rw [hChoice] at hSelects
    obtain ⟨hi, hHolds, -⟩ := hSelects
    refine .found i hi ?_ ((entryHolds_iff crc32 hNul (hPlain i hi).1).mp hHolds)
    rw [occupied_iff_toNat]
    intro hZero
    rw [hBlank i hi hZero] at hHolds
    cases hHolds
  | rewrite i =>
    rw [hChoice] at hSelects
    obtain ⟨hi, hNone, ⟨hZero, hFirst⟩ | ⟨hFull, hLeast, hFirst⟩⟩ := hSelects
    · exact .filled i hi (hAbsent hNone) (fun h => (occupied_iff_toNat _).mp h hZero)
        (fun j hj => (occupied_iff_toNat _).mpr (hFirst j hj))
    · exact .evicted i hi (hAbsent hNone) (fun j hj => (occupied_iff_toNat _).mpr (hFull j hj))
        hLeast hFirst

theorem updateTop_nil (shpool : Bool) (entries : Nat → TopEntry w) (capacity : Nat) {c : TopCall w}
    (hKey : c.key = []) : updateTop crc32 shpool entries capacity c = entries := by
  have hGuard : (!shpool || c.key.length == 0 || capacity == 0) = true := by simp [hKey]
  rw [updateTop, if_pos hGuard]

/-- A table with the calls of every identity since it was last inserted. -/
structure Ledger (w : Nat) where
  entries : Nat → TopEntry w
  since : KeyId → List (TopCall w)

def Ledger.zeroed : Ledger w := ⟨zeroedTable, fun _ => []⟩

def Ledger.step (capacity : Nat) (σ : Ledger w) (c : TopCall w) : Ledger w where
  entries := updateTop crc32 true σ.entries capacity c
  since :=
    if c.key = [] then σ.since
    else Function.update σ.since (keyId crc32 c.key)
      ((if Absent capacity σ.entries (keyId crc32 c.key) then []
        else σ.since (keyId crc32 c.key)) ++ [c])

def ledger (capacity : Nat) (calls : List (TopCall w)) : Ledger w :=
  calls.foldl (Ledger.step crc32 capacity) Ledger.zeroed

theorem ledger_append (capacity : Nat) (calls : List (TopCall w)) (c : TopCall w) :
    ledger crc32 capacity (calls ++ [c]) = (ledger crc32 capacity calls).step crc32 capacity c := by
  simp [ledger]

def sumTotals (calls : List (TopCall w)) : Totals w := (calls.map callTotals).sum

theorem sumTotals_append (calls : List (TopCall w)) (c : TopCall w) :
    sumTotals (calls ++ [c]) = sumTotals calls + callTotals c := by
  simp [sumTotals]

theorem sumTotals_hits (calls : List (TopCall w)) :
    (sumTotals calls).1 = (calls.length : BitVec w) := by
  induction calls with
  | nil => simp [sumTotals]
  | cons c calls ih =>
    have hCons : sumTotals (c :: calls) = callTotals c + sumTotals calls := by simp [sumTotals]
    rw [hCons, Prod.fst_add, ih, callTotals, List.length_cons, Nat.cast_succ, add_comm]

variable (capacity) in
/-- The first `n` slots are the occupied ones, their identities differ, and
each counts the calls since its insertion. -/
structure Counts (σ : Ledger w) (n made : Nat) : Prop where
  le : n ≤ capacity
  occupied : ∀ i < capacity, Occupied (σ.entries i) ↔ i < n
  plain : Plain capacity σ.entries
  distinct : ∀ i < n, ∀ j < n, entryId (σ.entries i) = entryId (σ.entries j) → i = j
  totals : ∀ i < n, counters (σ.entries i) = sumTotals (σ.since (entryId (σ.entries i)))
  short : ∀ id, (σ.since id).length ≤ made

theorem counts_zeroed : Counts capacity (Ledger.zeroed : Ledger w) 0 0 where
  le := Nat.zero_le _
  occupied i _ := by simp [Ledger.zeroed, zeroedTable, zeroedEntry, Occupied]
  plain i _ := ⟨terminated_zeroedEntry, fun _ => rfl⟩
  distinct i hi := absurd hi (Nat.not_lt_zero i)
  totals i hi := absurd hi (Nat.not_lt_zero i)
  short _ := Nat.le_refl _

theorem occupied_of_counters {e : TopEntry w} {calls : List (TopCall w)}
    (h : counters e = sumTotals calls) (hPositive : calls ≠ []) (hShort : calls.length < 2 ^ w) :
    Occupied e := by
  have hHits : e.hits = (calls.length : BitVec w) := by
    rw [← sumTotals_hits, ← h]
    rfl
  have hLength : 0 < calls.length := List.length_pos_iff.mpr hPositive
  rw [occupied_iff_toNat, hHits]
  simp only [BitVec.natCast_eq_ofNat, BitVec.toNat_ofNat, Nat.mod_eq_of_lt hShort]
  omega

/-- One slot receives a call: either it already counts the calls `base` of
the same identity, or it was rewritten and `base` is empty. -/
theorem Counts.put {σ : Ledger w} {n made : Nat} (h : Counts capacity σ n made) {c : TopCall w}
    {id : KeyId} {i n' : Nat} {e : TopEntry w} {base : List (TopCall w)} (hi : i < n')
    (hn' : n' ≤ capacity) (hRange : ∀ j < capacity, (j = i ∨ j < n) ↔ j < n')
    (hTerminated : Terminated e) (hId : entryId e = id)
    (hCount : counters e = sumTotals (base ++ [c]))
    (hOther : ∀ j < n, j ≠ i → entryId (σ.entries j) ≠ id) (hBase : base.length ≤ made)
    (hMade : made + 1 < 2 ^ w) :
    Counts capacity ⟨Function.update σ.entries i e, Function.update σ.since id (base ++ [c])⟩
      n' (made + 1) := by
  have hOccupied : Occupied e := by
    apply occupied_of_counters hCount (by simp)
    simp only [List.length_append, List.length_singleton]
    omega
  have hOld : ∀ j < n', j ≠ i → j < n := by
    intro j hj hNe
    rcases (hRange j (hj.trans_le hn')).mpr hj with rfl | hj
    · exact absurd rfl hNe
    · exact hj
  refine ⟨hn', ?_, ?_, ?_, ?_, ?_⟩
  · intro j hj
    rw [← hRange j hj]
    by_cases hNe : j = i
    · subst hNe
      simp [hOccupied]
    · simp [hNe, h.occupied j hj]
  · intro j hj
    by_cases hNe : j = i
    · subst hNe
      simp only [Function.update_self]
      exact ⟨hTerminated, fun hEmpty => absurd hOccupied hEmpty⟩
    · simp only [Function.update_of_ne hNe]
      exact h.plain j hj
  · intro j hj k hk hSame
    dsimp only at hSame
    by_cases hjNe : j = i <;> by_cases hkNe : k = i
    · rw [hjNe, hkNe]
    · subst hjNe
      rw [Function.update_self, Function.update_of_ne hkNe, hId] at hSame
      exact absurd hSame.symm (hOther k (hOld k hk hkNe) hkNe)
    · subst hkNe
      rw [Function.update_self, Function.update_of_ne hjNe, hId] at hSame
      exact absurd hSame (hOther j (hOld j hj hjNe) hjNe)
    · rw [Function.update_of_ne hjNe, Function.update_of_ne hkNe] at hSame
      exact h.distinct j (hOld j hj hjNe) k (hOld k hk hkNe) hSame
  · intro j hj
    by_cases hNe : j = i
    · subst hNe
      simp only [Function.update_self, hId]
      exact hCount
    · have hDiffers := hOther j (hOld j hj hNe) hNe
      simp only [Function.update_of_ne hNe, Function.update_of_ne hDiffers]
      exact h.totals j (hOld j hj hNe)
  · intro other
    by_cases hSame : other = id
    · subst hSame
      simp only [Function.update_self, List.length_append, List.length_singleton]
      omega
    · simp only [Function.update_of_ne hSame]
      exact (h.short other).trans (Nat.le_succ made)

theorem Counts.step {σ : Ledger w} {n made : Nat} (h : Counts capacity σ n made)
    (hCapacity : 0 < capacity) {c : TopCall w} (hNul : (0 : UInt8) ∉ c.key)
    (hMade : made + 1 < 2 ^ w) :
    ∃ n', n ≤ n' ∧ Counts capacity (σ.step crc32 capacity c) n' (made + 1) := by
  by_cases hKey : c.key = []
  · refine ⟨n, Nat.le_refl n, ?_⟩
    rw [Ledger.step, updateTop_nil crc32 true σ.entries capacity hKey, if_pos hKey]
    exact { h with short := fun id => (h.short id).trans (Nat.le_succ made) }
  · have hUpdates := updateTop_updates crc32 h.plain hCapacity hKey hNul
    rw [Ledger.step, if_neg hKey]
    generalize updateTop crc32 true σ.entries capacity c = entries' at hUpdates
    have hRewritten : counters (applyOps (freshOps c) (freshEntry crc32 c)) = sumTotals ([] ++ [c]) := by
      rw [counters_applyOps, counters_freshEntry, opsTotals_freshOps, sumTotals_append]
      rfl
    have hFreshId : entryId (applyOps (freshOps c) (freshEntry crc32 c)) = keyId crc32 c.key := by
      rw [entryId_applyOps, entryId_freshEntry crc32 hNul]
    cases hUpdates with
    | found i hi hOccupied hSame =>
      have hin : i < n := (h.occupied i hi).mp hOccupied
      rw [if_neg (fun hAbsent => hAbsent i hi hOccupied hSame)]
      refine ⟨n, Nat.le_refl n, h.put hin h.le ?_ (terminated_applyOps (h.plain i hi).1)
        ?_ ?_ ?_ (h.short _) hMade⟩
      · intro j _
        constructor
        · rintro (rfl | hj)
          · exact hin
          · exact hj
        · exact Or.inr
      · rw [entryId_applyOps, hSame]
      · rw [counters_applyOps, opsTotals_foundOps, h.totals i hin, hSame, sumTotals_append]
      · intro j hj hNe hEqual
        exact hNe (h.distinct j hj i hin (hEqual.trans hSame.symm))
    | filled i hi hAbsent hEmpty hFirst =>
      have hEq : i = n := by
        apply Nat.le_antisymm
        · by_contra hLess
          exact absurd ((h.occupied n (by omega)).mp (hFirst n (by omega))) (Nat.lt_irrefl n)
        · exact Nat.le_of_not_lt fun hLess => hEmpty ((h.occupied i hi).mpr hLess)
      rw [if_pos hAbsent]
      refine ⟨n + 1, Nat.le_succ n, h.put (by omega) (by omega) (fun j _ => by omega)
        (terminated_applyOps (terminated_freshEntry crc32 hNul)) hFreshId hRewritten ?_
        (Nat.zero_le _) hMade⟩
      intro j hj _
      exact hAbsent j (hj.trans_le h.le) ((h.occupied j (hj.trans_le h.le)).mpr hj)
    | evicted i hi hAbsent hFull _ _ =>
      have hn : n = capacity := by
        apply Nat.le_antisymm h.le
        exact Nat.le_of_not_lt fun hLess =>
          absurd ((h.occupied n hLess).mp (hFull n hLess)) (Nat.lt_irrefl n)
      rw [if_pos hAbsent]
      refine ⟨n, Nat.le_refl n, h.put (by omega) h.le (fun j _ => by omega)
        (terminated_applyOps (terminated_freshEntry crc32 hNul)) hFreshId hRewritten ?_
        (Nat.zero_le _) hMade⟩
      intro j hj _
      exact hAbsent j (hj.trans_le h.le) ((h.occupied j (hj.trans_le h.le)).mpr hj)

theorem counts_ledger (hCapacity : 0 < capacity) (calls : List (TopCall w))
    (hNul : ∀ c ∈ calls, (0 : UInt8) ∉ c.key) (hCalls : calls.length < 2 ^ w) :
    ∃ n, Counts capacity (ledger crc32 capacity calls) n calls.length := by
  induction calls using List.reverseRecOn with
  | nil => exact ⟨0, counts_zeroed⟩
  | append_singleton calls c ih =>
    rw [List.length_append, List.length_singleton] at hCalls ⊢
    obtain ⟨n, hCounts⟩ := ih (fun d hd => hNul d (List.mem_append_left _ hd)) (by omega)
    rw [ledger_append]
    obtain ⟨n', -, hNext⟩ := hCounts.step crc32 hCapacity (hNul c (by simp)) hCalls
    exact ⟨n', hNext⟩

def usedIds (calls : List (TopCall w)) : Finset KeyId :=
  ((calls.filter fun c => c.key ≠ []).map fun c => keyId crc32 c.key).toFinset

def callsOf (calls : List (TopCall w)) (id : KeyId) : List (TopCall w) :=
  calls.filter fun c => c.key ≠ [] ∧ keyId crc32 c.key = id

theorem mem_usedIds {calls : List (TopCall w)} {id : KeyId} :
    id ∈ usedIds crc32 calls ↔ ∃ c ∈ calls, c.key ≠ [] ∧ keyId crc32 c.key = id := by
  simp [usedIds, and_assoc]

theorem callsOf_eq_nil {calls : List (TopCall w)} {id : KeyId} (h : id ∉ usedIds crc32 calls) :
    callsOf crc32 calls id = [] := by
  rw [callsOf, List.filter_eq_nil_iff]
  intro c hc hMatch
  exact h ((mem_usedIds crc32).mpr ⟨c, hc, by simpa using hMatch⟩)

theorem usedIds_append (calls : List (TopCall w)) (c : TopCall w) :
    usedIds crc32 (calls ++ [c]) =
      if c.key = [] then usedIds crc32 calls else insert (keyId crc32 c.key) (usedIds crc32 calls) := by
  split
  · rename_i hKey
    simp [usedIds, List.filter_append, hKey]
  · rename_i hKey
    ext id
    simp only [mem_usedIds, Finset.mem_insert, List.mem_append, List.mem_singleton]
    constructor
    · rintro ⟨d, hd | rfl, hDKey, hId⟩
      · exact Or.inr ⟨d, hd, hDKey, hId⟩
      · exact Or.inl hId.symm
    · rintro (rfl | ⟨d, hd, hDKey, hId⟩)
      · exact ⟨c, Or.inr rfl, hKey, rfl⟩
      · exact ⟨d, Or.inl hd, hDKey, hId⟩

theorem Counts.le_card {σ : Ledger w} {n made : Nat} (h : Counts capacity σ n made)
    {used : Finset KeyId} (hUsed : ∀ i < n, entryId (σ.entries i) ∈ used) : n ≤ used.card := by
  have hCard := Finset.card_le_card_of_injOn (s := Finset.range n) (t := used)
    (fun i => entryId (σ.entries i)) (fun i hi => hUsed i (Finset.mem_range.mp hi))
    (fun i hi j hj => h.distinct i (Finset.mem_range.mp hi) j (Finset.mem_range.mp hj))
  rwa [Finset.card_range] at hCard

theorem Updates.keeps {entries entries' : Nat → TopEntry w} {c : TopCall w}
    (h : Updates crc32 capacity entries c entries')
    (hRoom : ¬ (Absent capacity entries (keyId crc32 c.key) ∧ Full capacity entries)) {i : Nat}
    (hOccupied : Occupied (entries i)) : entryId (entries' i) = entryId (entries i) := by
  cases h with
  | found j _ _ _ =>
    by_cases hij : i = j
    · subst hij
      rw [Function.update_self, entryId_applyOps]
    · rw [Function.update_of_ne hij]
  | filled j _ _ hEmpty _ =>
    have hij : i ≠ j := fun hij => hEmpty (hij ▸ hOccupied)
    rw [Function.update_of_ne hij]
  | evicted j _ hAbsent hFull _ _ => exact absurd ⟨hAbsent, hFull⟩ hRoom

theorem Updates.inserts {entries entries' : Nat → TopEntry w} {c : TopCall w}
    (h : Updates crc32 capacity entries c entries') (hNul : (0 : UInt8) ∉ c.key) :
    ∃ i < capacity, entryId (entries' i) = keyId crc32 c.key ∧
      ∀ j ≠ i, entries' j = entries j := by
  cases h with
  | found i hi _ hSame =>
    exact ⟨i, hi, by rw [Function.update_self, entryId_applyOps, hSame],
      fun j hj => Function.update_of_ne hj _ _⟩
  | filled i hi _ _ _ =>
    exact ⟨i, hi, by rw [Function.update_self, entryId_applyOps, entryId_freshEntry crc32 hNul],
      fun j hj => Function.update_of_ne hj _ _⟩
  | evicted i hi _ _ _ _ =>
    exact ⟨i, hi, by rw [Function.update_self, entryId_applyOps, entryId_freshEntry crc32 hNul],
      fun j hj => Function.update_of_ne hj _ _⟩

variable (capacity) in
/-- Nothing was evicted: the table holds exactly the identities used so far. -/
structure Exact (σ : Ledger w) (n : Nat) (calls : List (TopCall w)) : Prop where
  counts : Counts capacity σ n calls.length
  since : ∀ id, σ.since id = callsOf crc32 calls id
  present : ∀ id ∈ usedIds crc32 calls, ∃ i < n, entryId (σ.entries i) = id
  used : ∀ i < n, entryId (σ.entries i) ∈ usedIds crc32 calls

theorem Exact.notFull {σ : Ledger w} {n : Nat} {calls : List (TopCall w)} {c : TopCall w}
    (h : Exact crc32 capacity σ n calls) (hKey : c.key ≠ [])
    (hUsed : (usedIds crc32 (calls ++ [c])).card ≤ capacity) :
    ¬ (Absent capacity σ.entries (keyId crc32 c.key) ∧ Full capacity σ.entries) := by
  rintro ⟨hAbsent, hFull⟩
  have hNew : keyId crc32 c.key ∉ usedIds crc32 calls := by
    intro hId
    obtain ⟨i, hi, hSame⟩ := h.present _ hId
    have hiCap := hi.trans_le h.counts.le
    exact hAbsent i hiCap ((h.counts.occupied i hiCap).mpr hi) hSame
  rw [usedIds_append, if_neg hKey, Finset.card_insert_of_notMem hNew] at hUsed
  have hn := h.counts.le_card h.used
  have hLess : n < capacity := by omega
  exact absurd ((h.counts.occupied n hLess).mp (hFull n hLess)) (Nat.lt_irrefl n)

theorem callsOf_append (calls : List (TopCall w)) {c : TopCall w} (hKey : c.key ≠ []) :
    callsOf crc32 (calls ++ [c]) = Function.update (callsOf crc32 calls) (keyId crc32 c.key)
      (callsOf crc32 calls (keyId crc32 c.key) ++ [c]) := by
  funext id
  by_cases hId : id = keyId crc32 c.key
  · subst hId
    simp [callsOf, List.filter_append, hKey]
  · rw [Function.update_of_ne hId]
    simp [callsOf, List.filter_append, hKey, Ne.symm hId]

theorem Exact.step {σ : Ledger w} {n : Nat} {calls : List (TopCall w)} {c : TopCall w}
    (h : Exact crc32 capacity σ n calls) (hCapacity : 0 < capacity) (hNul : (0 : UInt8) ∉ c.key)
    (hMade : calls.length + 1 < 2 ^ w) (hUsed : (usedIds crc32 (calls ++ [c])).card ≤ capacity) :
    ∃ n', Exact crc32 capacity (σ.step crc32 capacity c) n' (calls ++ [c]) := by
  obtain ⟨n', hGrows, hCounts⟩ := h.counts.step crc32 hCapacity hNul hMade
  refine ⟨n', ?_⟩
  by_cases hKey : c.key = []
  · have hSame : σ.step crc32 capacity c = σ := by
      rw [Ledger.step, updateTop_nil crc32 true σ.entries capacity hKey, if_pos hKey]
    have hCalls : ∀ id, callsOf crc32 (calls ++ [c]) id = callsOf crc32 calls id := by
      intro id
      simp [callsOf, List.filter_append, hKey]
    have hIds : usedIds crc32 (calls ++ [c]) = usedIds crc32 calls := by
      rw [usedIds_append, if_pos hKey]
    rw [hSame] at hCounts ⊢
    have hBoth : ∀ i < capacity, i < n' ↔ i < n := fun i hi =>
      (hCounts.occupied i hi).symm.trans (h.counts.occupied i hi)
    refine ⟨by simpa using hCounts, fun id => (h.since id).trans (hCalls id).symm, ?_, ?_⟩
    · intro id hId
      obtain ⟨i, hi, hEntry⟩ := h.present id (hIds ▸ hId)
      exact ⟨i, by omega, hEntry⟩
    · intro i hi
      rw [hIds]
      exact h.used i ((hBoth i (hi.trans_le hCounts.le)).mp hi)
  · have hRoom := h.notFull crc32 hKey hUsed
    have hUpdates := updateTop_updates crc32 h.counts.plain hCapacity hKey hNul
    obtain ⟨slot, hSlot, hInserted, hOthers⟩ := hUpdates.inserts crc32 hNul
    have hKeeps : ∀ i < n, entryId ((σ.step crc32 capacity c).entries i) = entryId (σ.entries i) := by
      intro i hi
      exact hUpdates.keeps crc32 hRoom ((h.counts.occupied i (hi.trans_le h.counts.le)).mpr hi)
    have hIds : usedIds crc32 (calls ++ [c]) = insert (keyId crc32 c.key) (usedIds crc32 calls) := by
      rw [usedIds_append, if_neg hKey]
    refine ⟨by simpa using hCounts, ?_, ?_, ?_⟩
    · have hBase : (if Absent capacity σ.entries (keyId crc32 c.key) then []
          else σ.since (keyId crc32 c.key)) = callsOf crc32 calls (keyId crc32 c.key) := by
        split
        · rename_i hAbsent
          symm
          apply callsOf_eq_nil
          intro hId
          obtain ⟨i, hi, hEntry⟩ := h.present _ hId
          have hiCap := hi.trans_le h.counts.le
          exact hAbsent i hiCap ((h.counts.occupied i hiCap).mpr hi) hEntry
        · exact h.since _
      intro id
      rw [Ledger.step, if_neg hKey, hBase, callsOf_append crc32 calls hKey, funext h.since]
    · intro id hId
      rw [hIds, Finset.mem_insert] at hId
      rcases hId with rfl | hId
      · refine ⟨slot, ?_, hInserted⟩
        rw [← hCounts.occupied slot hSlot]
        by_contra hEmpty
        have hZeroed := (hCounts.plain slot hSlot).2 hEmpty
        have hZeroedId := congrArg entryId hZeroed
        exact entryId_zeroedEntry_ne crc32 hKey (hZeroedId.symm.trans hInserted)
      · obtain ⟨i, hi, hEntry⟩ := h.present id hId
        exact ⟨i, hi.trans_le hGrows, (hKeeps i hi).trans hEntry⟩
    · intro i hi
      rw [hIds, Finset.mem_insert]
      by_cases hiSlot : i = slot
      · exact Or.inl (hiSlot ▸ hInserted)
      · have hSame : (σ.step crc32 capacity c).entries i = σ.entries i := hOthers i hiSlot
        have hiCap := hi.trans_le hCounts.le
        have hOld : i < n := by
          rw [← h.counts.occupied i hiCap, ← hSame]
          exact (hCounts.occupied i hiCap).mpr hi
        exact Or.inr (hSame ▸ h.used i hOld)

theorem exact_ledger (hCapacity : 0 < capacity) (calls : List (TopCall w))
    (hNul : ∀ c ∈ calls, (0 : UInt8) ∉ c.key) (hCalls : calls.length < 2 ^ w)
    (hUsed : (usedIds crc32 calls).card ≤ capacity) :
    ∃ n, Exact crc32 capacity (ledger crc32 capacity calls) n calls := by
  induction calls using List.reverseRecOn with
  | nil =>
    refine ⟨0, counts_zeroed, fun id => rfl, fun id hId => ?_, fun i hi => absurd hi (Nat.not_lt_zero i)⟩
    simp [usedIds] at hId
  | append_singleton calls c ih =>
    rw [List.length_append, List.length_singleton] at hCalls
    have hFewer : (usedIds crc32 calls).card ≤ capacity := by
      refine (Finset.card_le_card ?_).trans hUsed
      rw [usedIds_append]
      split
      · exact Finset.Subset.refl _
      · exact Finset.subset_insert _ _
    obtain ⟨n, hExact⟩ := ih (fun d hd => hNul d (List.mem_append_left _ hd)) (by omega) hFewer
    rw [ledger_append]
    exact hExact.step crc32 hCapacity (hNul c (by simp)) hCalls hUsed

def topRun (capacity : Nat) (calls : List (TopCall w)) : Nat → TopEntry w :=
  calls.foldl (fun entries c => updateTop crc32 true entries capacity c) zeroedTable

theorem ledger_entries (capacity : Nat) (calls : List (TopCall w)) :
    (ledger crc32 capacity calls).entries = topRun crc32 capacity calls := by
  induction calls using List.reverseRecOn with
  | nil => rfl
  | append_singleton calls c ih =>
    rw [ledger_append, Ledger.step, ih]
    simp [topRun]

/-- The four counters of a slot are the totals over `calls`; bytes and
latencies are summed in machine words, so they are exact as long as the sums
are below `2 ^ w`. -/
structure SlotCounts (e : TopEntry w) (calls : List (TopCall w)) : Prop where
  hits : e.hits.toNat = calls.length
  bytes : e.bytes = (calls.map fun c => BitVec.ofInt w c.bytes).sum
  latency : e.latencyMsTotal = (calls.map fun c => c.latency).sum
  errors : e.errors.toNat = (calls.filter fun c => c.isError).length

theorem sumTotals_eq (calls : List (TopCall w)) :
    sumTotals calls = ((calls.length : BitVec w), (calls.map fun c => BitVec.ofInt w c.bytes).sum,
      (calls.map fun c => c.latency).sum, ((calls.filter fun c => c.isError).length : BitVec w)) := by
  induction calls with
  | nil => rfl
  | cons c calls ih =>
    have hCons : sumTotals (c :: calls) = callTotals c + sumTotals calls := by simp [sumTotals]
    rw [hCons, ih]
    cases hError : c.isError <;>
      simp only [callTotals, hError, Prod.mk_add_mk, List.length_cons, List.map_cons, List.sum_cons,
        List.filter_cons, Nat.cast_succ, if_true, Bool.false_eq_true, if_false, zero_add] <;>
      simp only [add_comm]

theorem toNat_natCast_of_lt {n : Nat} (h : n < 2 ^ w) : ((n : BitVec w)).toNat = n := by
  simp [Nat.mod_eq_of_lt h]

theorem slotCounts_of_counters {e : TopEntry w} {calls : List (TopCall w)}
    (h : counters e = sumTotals calls) (hShort : calls.length < 2 ^ w) : SlotCounts e calls := by
  rw [sumTotals_eq, counters, Prod.mk.injEq, Prod.mk.injEq, Prod.mk.injEq] at h
  obtain ⟨hHits, hBytes, hLatency, hErrors⟩ := h
  refine ⟨?_, hBytes, hLatency, ?_⟩
  · rw [hHits, toNat_natCast_of_lt hShort]
  · rw [hErrors, toNat_natCast_of_lt ((List.length_filter_le _ _).trans_lt hShort)]

/-- The table after a run of calls, and what one more call does to it. -/
structure ExactTable (capacity : Nat) (calls : List (TopCall w)) : Prop where
  initialSegment : ∃ n ≤ capacity, ∀ i < capacity,
    Occupied (topRun crc32 capacity calls i) ↔ i < n
  uniqueIds : ∀ i < capacity, ∀ j < capacity, Occupied (topRun crc32 capacity calls i) →
    Occupied (topRun crc32 capacity calls j) →
    entryId (topRun crc32 capacity calls i) = entryId (topRun crc32 capacity calls j) → i = j
  sinceInserted : ∀ i < capacity, Occupied (topRun crc32 capacity calls i) →
    SlotCounts (topRun crc32 capacity calls i)
      ((ledger crc32 capacity calls).since (entryId (topRun crc32 capacity calls i)))
  oneSlot : ∀ c : TopCall w, (0 : UInt8) ∉ c.key → ∃ i < capacity, ∀ j ≠ i,
    updateTop crc32 true (topRun crc32 capacity calls) capacity c j = topRun crc32 capacity calls j
  evictsLeast : ∀ c : TopCall w, (0 : UInt8) ∉ c.key →
    ∀ i < capacity, Occupied (topRun crc32 capacity calls i) →
    entryId (updateTop crc32 true (topRun crc32 capacity calls) capacity c i) ≠
      entryId (topRun crc32 capacity calls i) →
    Full capacity (topRun crc32 capacity calls) ∧
      Absent capacity (topRun crc32 capacity calls) (keyId crc32 c.key) ∧
      ∀ j < capacity, (topRun crc32 capacity calls i).hits.toNat ≤
        (topRun crc32 capacity calls j).hits.toNat
  totals : (usedIds crc32 calls).card ≤ capacity → ∀ c ∈ calls, c.key ≠ [] →
    ∃ i < capacity, Occupied (topRun crc32 capacity calls i) ∧
      entryId (topRun crc32 capacity calls i) = keyId crc32 c.key ∧
      SlotCounts (topRun crc32 capacity calls i)
        (calls.filter fun d => keyId crc32 d.key = keyId crc32 c.key)

theorem Updates.evicts {entries entries' : Nat → TopEntry w} {c : TopCall w}
    (h : Updates crc32 capacity entries c entries') {i : Nat} (hOccupied : Occupied (entries i))
    (hReplaced : entryId (entries' i) ≠ entryId (entries i)) :
    Full capacity entries ∧ Absent capacity entries (keyId crc32 c.key) ∧
      ∀ j < capacity, (entries i).hits.toNat ≤ (entries j).hits.toNat := by
  have hEvicted : Absent capacity entries (keyId crc32 c.key) ∧ Full capacity entries := by
    by_contra hRoom
    exact hReplaced (h.keeps crc32 hRoom hOccupied)
  cases h with
  | found j hj hjOccupied hSame => exact absurd hSame (hEvicted.1 j hj hjOccupied)
  | filled j hj _ hEmpty _ => exact absurd (hEvicted.2 j hj) hEmpty
  | evicted j hj _ hFull hLeast _ =>
    have hij : i = j := by
      by_contra hij
      exact hReplaced (by rw [Function.update_of_ne hij])
    exact ⟨hFull, hEvicted.1, hij ▸ hLeast⟩

theorem keyId_ne_of_nil {key : Bytes} (hKey : key ≠ []) : keyId crc32 [] ≠ keyId crc32 key := by
  intro h
  have hPrefix : [] = key.take (storedLen key) := congrArg Prod.snd h
  cases key with
  | nil => exact hKey rfl
  | cons b key => simp [storedLen, keyLen] at hPrefix

theorem callsOf_eq_filter {key : Bytes} (hKey : key ≠ []) (calls : List (TopCall w)) :
    callsOf crc32 calls (keyId crc32 key) =
      calls.filter fun d => keyId crc32 d.key = keyId crc32 key := by
  apply List.filter_congr
  intro d _
  by_cases hd : d.key = []
  · simp [hd, keyId_ne_of_nil crc32 hKey]
  · simp [hd]

/-- While calls come one at a time and fewer than `2 ^ w` are made, the table
counts exactly. A call with an empty key returns before the search and is in
no total. -/
theorem updateTop_counts_exactly {capacity : Nat} (hCapacity : 0 < capacity)
    (calls : List (TopCall w)) (hNul : ∀ c ∈ calls, (0 : UInt8) ∉ c.key)
    (hCalls : calls.length < 2 ^ w) : ExactTable crc32 capacity calls := by
  obtain ⟨n, hCounts⟩ := counts_ledger crc32 hCapacity calls hNul hCalls
  have hEntries := ledger_entries crc32 capacity calls
  refine ⟨⟨n, hCounts.le, ?_⟩, ?_, ?_, ?_, ?_, ?_⟩
  · rw [← hEntries]
    exact hCounts.occupied
  · rw [← hEntries]
    intro i hi j hj hiOccupied hjOccupied
    exact hCounts.distinct i ((hCounts.occupied i hi).mp hiOccupied) j
      ((hCounts.occupied j hj).mp hjOccupied)
  · rw [← hEntries]
    intro i hi hOccupied
    exact slotCounts_of_counters (hCounts.totals i ((hCounts.occupied i hi).mp hOccupied))
      ((hCounts.short _).trans_lt hCalls)
  · rw [← hEntries]
    intro c hc
    by_cases hKey : c.key = []
    · exact ⟨0, hCapacity, fun j _ => by rw [updateTop_nil crc32 true _ capacity hKey]⟩
    · obtain ⟨i, hi, -, hOthers⟩ :=
        (updateTop_updates crc32 hCounts.plain hCapacity hKey hc).inserts crc32 hc
      exact ⟨i, hi, hOthers⟩
  · rw [← hEntries]
    intro c hc i hi hOccupied hReplaced
    by_cases hKey : c.key = []
    · rw [updateTop_nil crc32 true _ capacity hKey] at hReplaced
      exact absurd rfl hReplaced
    · exact (updateTop_updates crc32 hCounts.plain hCapacity hKey hc).evicts crc32 hOccupied hReplaced
  · intro hUsed c hc hKey
    obtain ⟨m, hExact⟩ := exact_ledger crc32 hCapacity calls hNul hCalls hUsed
    obtain ⟨i, hi, hEntry⟩ := hExact.present _ ((mem_usedIds crc32).mpr ⟨c, hc, hKey, rfl⟩)
    have hiCap := hi.trans_le hExact.counts.le
    have hTotals := hExact.counts.totals i hi
    rw [hEntry, hExact.since, callsOf_eq_filter crc32 hKey] at hTotals
    rw [← hEntries]
    exact ⟨i, hiCap, (hExact.counts.occupied i hiCap).mpr hi, hEntry,
      slotCounts_of_counters hTotals ((List.length_filter_le _ _).trans_lt hCalls)⟩

/-- The checksum of the one key that the next example counts. -/
def crc32OfA (key : Bytes) : BitVec 32 := if key = ascii "/a" then 0x69707b5c else 0

def callA : TopCall 64 := ⟨ascii "/a", 3, 120, false, 1710000000⟩

theorem updateTop_counts_exactly_two_calls : ExactTable crc32OfA 2 [callA, callA] :=
  updateTop_counts_exactly crc32OfA (by decide) [callA, callA] (by decide) (by decide)

/-- One call with the empty key: its identity is the only one used, and no
slot of the table counts it. -/
theorem updateTop_skips_empty_key :
    let calls : List (TopCall 64) := [⟨[], 3, 120, false, 1710000000⟩]
    (calls.map fun c => keyId crc32OfA c.key).toFinset.card ≤ 1 ∧
      ¬ ∀ c ∈ calls, ∃ i < 1, Occupied (topRun crc32OfA 1 calls i) ∧
        entryId (topRun crc32OfA 1 calls i) = keyId crc32OfA c.key ∧
        SlotCounts (topRun crc32OfA 1 calls i)
          (calls.filter fun d => keyId crc32OfA d.key = keyId crc32OfA c.key) := by
  refine ⟨by simp, fun h => ?_⟩
  obtain ⟨i, _, hOccupied, -⟩ := h _ List.mem_cons_self
  exact hOccupied rfl

end HttpMonitoring.TopTable
