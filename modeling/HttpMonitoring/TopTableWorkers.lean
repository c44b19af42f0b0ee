import HttpMonitoring.TopTableTotals
import HttpMonitoring.Library.Interleaving

/-!
# Workers that share a table

`update_top` as its atomic steps: every read of the pass, the critical section
and every later addition to the slot. Between two steps of a worker any other
worker may take steps of its own.
-/

namespace HttpMonitoring.TopTableWorkers

open Library.CString Library.SlotTable Library.Interleaving TopTable

variable {w : Nat} {ι : Type*} [DecidableEq ι] (crc32 : Bytes → BitVec 32) (capacity : Nat)

/-- Where a worker stands in a call, before its next atomic step. -/
inductive Phase (w : Nat)
  | idle
  | readHits (c : TopCall w) (i : Nat) (s : Scan)
  | readHash (c : TopCall w) (i : Nat) (s : Scan)
  | readKey (c : TopCall w) (i : Nat) (s : Scan)
  | readCount (c : TopCall w) (i : Nat) (s : Scan)
  | critical (c : TopCall w) (slot : Nat)
  | finish (c : TopCall w) (slot : Nat) (ops : List (EntryOp w))
deriving DecidableEq

def startCall (c : TopCall w) : Phase w :=
  if c.key.length == 0 || capacity == 0 then .idle else .readHits c 0 ⟨capacity, 0, 2 ^ w - 1⟩

def stepPhase (entries : Nat → TopEntry w) : Phase w → Option (Phase w × (Nat → TopEntry w))
  | .idle => none
  | .readHits c i s =>
    if i < capacity then
      if (entries i).hits.toNat = 0 ∧ s.empty = capacity then
        some (.readHits c (i + 1) { s with empty := i }, entries)
      else some (.readHash c i s, entries)
    else some (.critical c (if s.empty ≠ capacity then s.empty else s.victim), entries)
  | .readHash c i s =>
    if (entries i).hash == hash crc32 c.key then some (.readKey c i s, entries)
    else some (.readCount c i s, entries)
  | .readKey c i s =>
    if strncmpEq (storedLen c.key) (entries i).key c.key &&
        (entries i).key.getD (storedLen c.key) 0 == 0 then
      some (.finish c i (foundOps c), entries)
    else some (.readCount c i s, entries)
  | .readCount c i s =>
    if (entries i).hits.toNat < s.minHits then
      some (.readHits c (i + 1) { s with minHits := (entries i).hits.toNat, victim := i }, entries)
    else some (.readHits c (i + 1) s, entries)
  | .critical c slot =>
    some (.finish c slot (freshOps c), Function.update entries slot (freshEntry crc32 c))
  | .finish _ _ [] => some (.idle, entries)
  | .finish c slot (op :: ops) =>
    some (.finish c slot ops, Function.update entries slot (op.apply (entries slot)))

/-- The table, and for the statements the calls made so far. -/
structure Shared (w : Nat) where
  entries : Nat → TopEntry w
  made : List (TopCall w)

inductive Label (ι : Type*) (w : Nat)
  | call (i : ι) (c : TopCall w)
  | move (i : ι)

def step (cfg : Config ι (Shared w) (Phase w)) : Label ι w → Option (Config ι (Shared w) (Phase w))
  | .call i c =>
    if cfg.phase i = .idle then
      some (cfg.put i (startCall capacity c) { cfg.shared with made := cfg.shared.made ++ [c] })
    else none
  | .move i => (stepPhase crc32 capacity cfg.shared.entries (cfg.phase i)).map fun next =>
      cfg.put i next.1 { cfg.shared with entries := next.2 }

def start : Config ι (Shared w) (Phase w) where
  shared := ⟨zeroedTable, []⟩
  phase _ := .idle

def Alone : Phase w × (Nat → TopEntry w) → Phase w × (Nat → TopEntry w) → Prop :=
  Relation.ReflTransGen fun a b => stepPhase crc32 capacity a.2 a.1 = some b

variable {capacity}

theorem Alone.head {p p' : Phase w} {entries entries' : Nat → TopEntry w}
    {b : Phase w × (Nat → TopEntry w)} (hStep : stepPhase crc32 capacity entries p = some (p', entries'))
    (h : Alone crc32 capacity (p', entries') b) : Alone crc32 capacity (p, entries) b :=
  Relation.ReflTransGen.head hStep h

theorem alone_finish (c : TopCall w) (slot : Nat) (ops : List (EntryOp w))
    (entries : Nat → TopEntry w) : Alone crc32 capacity (.finish c slot ops, entries)
      (.idle, Function.update entries slot (applyOps ops (entries slot))) := by
  induction ops generalizing entries with
  | nil =>
    have hReturn : stepPhase crc32 capacity entries (.finish c slot []) = some (.idle, entries) := rfl
    apply Alone.head crc32 hReturn
    rw [applyOps, List.foldl_nil, Function.update_eq_self]
    exact Relation.ReflTransGen.refl
  | cons op ops ih =>
    apply Alone.head crc32 rfl
    have hRest := ih (Function.update entries slot (op.apply (entries slot)))
    rwa [Function.update_self, Function.update_idem] at hRest

theorem alone_critical (c : TopCall w) (slot : Nat) (entries : Nat → TopEntry w) :
    Alone crc32 capacity (.critical c slot, entries)
      (.idle, writeSlot crc32 entries c (.rewrite slot)) := by
  apply Alone.head crc32 rfl
  have hRest : Alone crc32 capacity _ _ := alone_finish crc32 c slot (freshOps c)
    (Function.update entries slot (freshEntry crc32 c))
  rwa [Function.update_self, Function.update_idem] at hRest

theorem alone_scan (c : TopCall w) (entries : Nat → TopEntry w) (n i : Nat) (hn : i + n = capacity)
    (s : Scan) : Alone crc32 capacity (.readHits c i s, entries)
      (.idle, writeSlot crc32 entries c (scan (fun e => e.hits.toNat) (entryHolds crc32 c.key)
        capacity entries (List.range' i n) s)) := by
  induction n generalizing i s with
  | zero =>
    have hEnd : ¬ i < capacity := by omega
    apply Alone.head crc32 (by rw [stepPhase, if_neg hEnd])
    exact alone_critical crc32 c _ entries
  | succ n ih =>
    have hi : i < capacity := by omega
    rw [List.range'_succ, scan]
    split
    · rename_i hEmpty
      apply Alone.head crc32 (by rw [stepPhase, if_pos hi, if_pos hEmpty])
      exact ih (i + 1) (by omega) _
    · rename_i hNotEmpty
      have hCount : Alone crc32 capacity (.readCount c i s, entries)
          (.idle, writeSlot crc32 entries c
            (if (entries i).hits.toNat < s.minHits then
              scan (fun e => e.hits.toNat) (entryHolds crc32 c.key) capacity entries
                (List.range' (i + 1) n) { s with minHits := (entries i).hits.toNat, victim := i }
            else scan (fun e => e.hits.toNat) (entryHolds crc32 c.key) capacity entries
              (List.range' (i + 1) n) s)) := by
        split
        · rename_i hLess
          apply Alone.head crc32 (by rw [stepPhase, if_pos hLess])
          exact ih (i + 1) (by omega) _
        · rename_i hNotLess
          apply Alone.head crc32 (by rw [stepPhase, if_neg hNotLess])
          exact ih (i + 1) (by omega) _
      apply Alone.head crc32 (by rw [stepPhase, if_pos hi, if_neg hNotEmpty])
      rw [entryHolds, Bool.and_assoc]
      cases hHash : (entries i).hash == hash crc32 c.key with
      | false =>
        apply Alone.head crc32 (by rw [stepPhase, hHash]; rfl)
        exact hCount
      | true =>
        apply Alone.head crc32 (by rw [stepPhase, hHash]; rfl)
        rw [Bool.true_and]
        split
        · rename_i hMatch
          apply Alone.head crc32 (by rw [stepPhase, if_pos hMatch])
          exact alone_finish crc32 c i (foundOps c) entries
        · rename_i hMatch
          apply Alone.head crc32 (by rw [stepPhase, if_neg hMatch])
          exact hCount

theorem alone_updateTop (c : TopCall w) (entries : Nat → TopEntry w) :
    Alone crc32 capacity (startCall capacity c, entries)
      (.idle, updateTop crc32 true entries capacity c) := by
  rw [startCall, updateTop, Bool.not_true, Bool.false_or]
  split
  · exact Relation.ReflTransGen.refl
  · rw [chooseSlot, List.range_eq_range']
    exact alone_scan crc32 c entries capacity 0 (by omega) _

variable (capacity)

def keyText (e : TopEntry w) : Bytes := text e.key

/-- A key a call may come with: not empty, without NUL, stored in full. -/
def PlainKey (key : Bytes) : Prop := key ≠ [] ∧ (0 : UInt8) ∉ key ∧ key.length < keyLen

/-- The slot about to be rewritten has counted nothing and was given to no
other key, and no other slot was given to this key. -/
def Undisturbed (entries : Nat → TopEntry w) (c : TopCall w) (slot : Nat) : Prop :=
  counters (entries slot) = 0 ∧
    (keyText (entries slot) = [] ∨ keyText (entries slot) = c.key) ∧
    ∀ j < capacity, j ≠ slot → keyText (entries j) ≠ c.key

def Guard (cfg : Config ι (Shared w) (Phase w)) : Label ι w → Prop
  | .call _ c => PlainKey c.key
  | .move i => match cfg.phase i with
    | .critical c slot => Undisturbed capacity cfg.shared.entries c slot
    | _ => True

instance (key : Bytes) : Decidable (PlainKey key) :=
  inferInstanceAs (Decidable (key ≠ [] ∧ (0 : UInt8) ∉ key ∧ key.length < keyLen))

instance (entries : Nat → TopEntry w) (c : TopCall w) (slot : Nat) :
    Decidable (Undisturbed capacity entries c slot) :=
  inferInstanceAs (Decidable (_ ∧ _ ∧ ∀ j < capacity, j ≠ slot → keyText (entries j) ≠ c.key))

instance (cfg : Config ι (Shared w) (Phase w)) (l : Label ι w) : Decidable (Guard capacity cfg l) :=
  match l with
  | .call _ c => inferInstanceAs (Decidable (PlainKey c.key))
  | .move i =>
    match h : cfg.phase i with
    | .critical c slot =>
      decidable_of_iff (Undisturbed capacity cfg.shared.entries c slot) (by simp [Guard, h])
    | .idle => isTrue (by simp [Guard, h])
    | .readHits .. => isTrue (by simp [Guard, h])
    | .readHash .. => isTrue (by simp [Guard, h])
    | .readKey .. => isTrue (by simp [Guard, h])
    | .readCount .. => isTrue (by simp [Guard, h])
    | .finish .. => isTrue (by simp [Guard, h])

/-- What a worker in a call still has to add to the slot of its key. -/
def owed : Phase w → Option (TopCall w × Totals w)
  | .idle => none
  | .readHits c _ _ => some (c, callTotals c)
  | .readHash c _ _ => some (c, callTotals c)
  | .readKey c _ _ => some (c, callTotals c)
  | .readCount c _ _ => some (c, callTotals c)
  | .critical c _ => some (c, callTotals c)
  | .finish c _ ops => some (c, opsTotals ops)

def due (key : Bytes) (phase : Phase w) : Totals w :=
  match owed phase with
  | none => 0
  | some (c, amount) => if c.key = key then amount else 0

/-- What the slots given to `key` have counted. -/
def counted (key : Bytes) (shared : Shared w) : Totals w :=
  ∑ j ∈ Finset.range capacity,
    if keyText (shared.entries j) = key then counters (shared.entries j) else 0

def InRange (entries : Nat → TopEntry w) : Phase w → Prop
  | .idle => True
  | .readHits c i s => PlainKey c.key ∧ i ≤ capacity ∧ s.empty ≤ capacity ∧ s.victim < capacity
  | .readHash c i s => PlainKey c.key ∧ i < capacity ∧ s.empty ≤ capacity ∧ s.victim < capacity
  | .readKey c i s => PlainKey c.key ∧ i < capacity ∧ s.empty ≤ capacity ∧ s.victim < capacity
  | .readCount c i s => PlainKey c.key ∧ i < capacity ∧ s.empty ≤ capacity ∧ s.victim < capacity
  | .critical c slot => PlainKey c.key ∧ slot < capacity
  | .finish c slot _ => PlainKey c.key ∧ slot < capacity ∧ keyText (entries slot) = c.key

structure Inv [Fintype ι] (cfg : Config ι (Shared w) (Phase w)) : Prop where
  keys : ∀ c ∈ cfg.shared.made, PlainKey c.key
  terminated : ∀ j < capacity, Terminated (cfg.shared.entries j)
  unique : ∀ j < capacity, ∀ k < capacity, keyText (cfg.shared.entries j) ≠ [] →
    keyText (cfg.shared.entries j) = keyText (cfg.shared.entries k) → j = k
  phases : ∀ i, InRange capacity cfg.shared.entries (cfg.phase i)
  balanced : ∀ key ≠ [], cfg.balance (counted capacity key) (due key) =
    sumTotals (cfg.shared.made.filter fun c => c.key = key)

theorem take_storedLen {key : Bytes} (h : PlainKey key) : key.take (storedLen key) = key := by
  have hLength := h.2.2
  apply List.take_of_length_le
  simp only [storedLen, keyLen] at hLength ⊢
  omega

theorem keyText_freshEntry {c : TopCall w} (h : PlainKey c.key) :
    keyText (freshEntry crc32 c) = c.key := by
  have hId := congrArg Prod.snd (entryId_freshEntry crc32 h.2.1)
  exact hId.trans (take_storedLen h)

theorem keyText_apply (op : EntryOp w) (e : TopEntry w) : keyText (op.apply e) = keyText e := by
  rw [keyText, keyText, apply_key]

/-- A step is local to its worker, or the critical section, or one update. -/
inductive Moves (entries : Nat → TopEntry w) : Phase w → Phase w → (Nat → TopEntry w) → Prop
  | quiet (p p' : Phase w) (inRange : InRange capacity entries p')
      (same : ∀ key, due key p' = due key p) : Moves entries p p' entries
  | rewrite (c : TopCall w) (slot : Nat) :
      Moves entries (.critical c slot) (.finish c slot (freshOps c))
        (Function.update entries slot (freshEntry crc32 c))
  | update (c : TopCall w) (slot : Nat) (op : EntryOp w) (ops : List (EntryOp w)) :
      Moves entries (.finish c slot (op :: ops)) (.finish c slot ops)
        (Function.update entries slot (op.apply (entries slot)))

variable {capacity}

theorem stepPhase_moves {entries entries' : Nat → TopEntry w} {p p' : Phase w}
    (hTerminated : ∀ j < capacity, Terminated (entries j)) (hRange : InRange capacity entries p)
    (h : stepPhase crc32 capacity entries p = some (p', entries')) :
    Moves crc32 capacity entries p p' entries' := by
  cases p with
  | idle => cases h
  | readHits c i s =>
    obtain ⟨hKey, hi, hEmpty, hVictim⟩ := hRange
    rw [stepPhase] at h
    split at h
    · rename_i hLess
      split at h
      · obtain ⟨rfl, rfl⟩ := Prod.mk.inj (Option.some.inj h)
        exact .quiet _ _ ⟨hKey, hLess, hi, hVictim⟩ (fun _ => rfl)
      · obtain ⟨rfl, rfl⟩ := Prod.mk.inj (Option.some.inj h)
        exact .quiet _ _ ⟨hKey, hLess, hEmpty, hVictim⟩ (fun _ => rfl)
    · obtain ⟨rfl, rfl⟩ := Prod.mk.inj (Option.some.inj h)
      refine .quiet _ _ ⟨hKey, ?_⟩ (fun _ => rfl)
      split
      · rename_i hSome
        exact Nat.lt_of_le_of_ne hEmpty hSome
      · exact hVictim
  | readHash c i s =>
    rw [stepPhase] at h
    split at h <;> obtain ⟨rfl, rfl⟩ := Prod.mk.inj (Option.some.inj h)
    · exact .quiet _ _ hRange (fun _ => rfl)
    · exact .quiet _ _ hRange (fun _ => rfl)
  | readKey c i s =>
    obtain ⟨hKey, hi, hScan⟩ := hRange
    rw [stepPhase] at h
    split at h <;> obtain ⟨rfl, rfl⟩ := Prod.mk.inj (Option.some.inj h)
    · rename_i hMatch
      have hText := (keyMatches_iff hKey.2.1 (hTerminated i hi)).mp hMatch
      rw [take_storedLen hKey] at hText
      refine .quiet _ _ ⟨hKey, hi, hText⟩ (fun key => ?_)
      simp only [due, owed, opsTotals_foundOps]
    · exact .quiet _ _ ⟨hKey, hi, hScan⟩ (fun _ => rfl)
  | readCount c i s =>
    obtain ⟨hKey, hi, hEmpty, hVictim⟩ := hRange
    rw [stepPhase] at h
    split at h <;> obtain ⟨rfl, rfl⟩ := Prod.mk.inj (Option.some.inj h)
    · exact .quiet _ _ ⟨hKey, hi, hEmpty, hi⟩ (fun _ => rfl)
    · exact .quiet _ _ ⟨hKey, hi, hEmpty, hVictim⟩ (fun _ => rfl)
  | critical c slot =>
    obtain ⟨rfl, rfl⟩ := Prod.mk.inj (Option.some.inj h)
    exact .rewrite c slot
  | finish c slot ops =>
    cases ops with
    | nil =>
      obtain ⟨rfl, rfl⟩ := Prod.mk.inj (Option.some.inj h)
      refine .quiet _ _ trivial (fun key => ?_)
      simp [due, owed, opsTotals]
    | cons op ops =>
      obtain ⟨rfl, rfl⟩ := Prod.mk.inj (Option.some.inj h)
      exact .update c slot op ops

theorem counted_update (shared : Shared w) {slot : Nat} (hSlot : slot < capacity) (e : TopEntry w)
    (key : Bytes) (amount : Totals w)
    (h : (if keyText e = key then counters e else 0) =
      (if keyText (shared.entries slot) = key then counters (shared.entries slot) else 0) + amount) :
    counted capacity key { shared with entries := Function.update shared.entries slot e } =
      counted capacity key shared + amount :=
  sum_update_add (Finset.mem_range.mpr hSlot)
    (fun e => if keyText e = key then counters e else 0) shared.entries e amount h

/-- A worker past its choice keeps its slot when another slot is written or
when the slot is given to the same key again. -/
theorem InRange.update {entries : Nat → TopEntry w} {slot : Nat} {e : TopEntry w} {p : Phase w}
    (h : InRange capacity entries p)
    (hKeep : keyText (entries slot) ≠ [] → keyText e = keyText (entries slot)) :
    InRange capacity (Function.update entries slot e) p := by
  cases p with
  | finish c i ops =>
    obtain ⟨hKey, hi, hText⟩ := h
    refine ⟨hKey, hi, ?_⟩
    by_cases hSlot : i = slot
    · subst hSlot
      rw [Function.update_self, hKeep (by rw [hText]; exact hKey.1), hText]
    · rw [Function.update_of_ne hSlot, hText]
  | _ => exact h

variable [Fintype ι]

omit [DecidableEq ι] in
theorem inv_start : Inv capacity (start : Config ι (Shared w) (Phase w)) where
  keys _ hc := absurd hc List.not_mem_nil
  terminated _ _ := terminated_zeroedEntry
  unique j _ k _ hText := absurd (congrArg Prod.snd (entryId_zeroedEntry (w := w))) hText
  phases _ := trivial
  balanced key _ := by
    rw [Config.balance_of_idle (fun _ => rfl)]
    apply Finset.sum_eq_zero
    intro j _
    split <;> rfl

theorem Inv.call {cfg : Config ι (Shared w) (Phase w)} (h : Inv capacity cfg)
    (hCapacity : 0 < capacity) {i : ι} (hIdle : cfg.phase i = .idle) {c : TopCall w}
    (hKey : PlainKey c.key) :
    Inv capacity (cfg.put i (startCall capacity c)
      { cfg.shared with made := cfg.shared.made ++ [c] }) := by
  have hStart : startCall capacity c = .readHits c 0 ⟨capacity, 0, 2 ^ w - 1⟩ := by
    rw [startCall, if_neg]
    simp [hKey.1, Nat.ne_of_gt hCapacity]
  rw [hStart]
  refine ⟨?_, h.terminated, h.unique, ?_, ?_⟩
  · intro d hd
    rcases List.mem_append.mp hd with hd | hd
    · exact h.keys d hd
    · obtain rfl := List.mem_singleton.mp hd
      exact hKey
  · apply Config.forall_put (P := fun _ p => InRange capacity cfg.shared.entries p)
    · exact ⟨hKey, Nat.zero_le _, Nat.le_refl _, hCapacity⟩
    · exact fun j _ => h.phases j
  · intro key hNonempty
    have hSum : sumTotals ((cfg.shared.made ++ [c]).filter fun d => d.key = key) =
        sumTotals (cfg.shared.made.filter fun d => d.key = key) +
          if c.key = key then callTotals c else 0 := by
      rw [List.filter_append]
      split <;> simp [sumTotals, *]
    rw [Config.balance_put _ _ _ _ _ _ (if c.key = key then callTotals c else 0),
      h.balanced key hNonempty]
    · exact hSum.symm
    · rw [hIdle]
      simp [counted, due, owed]

/-- A step within a worker changes neither the table nor what the worker owes. -/
theorem Inv.quiet {cfg : Config ι (Shared w) (Phase w)} (h : Inv capacity cfg) {i : ι} {p : Phase w}
    (hInRange : InRange capacity cfg.shared.entries p) (hSame : ∀ key, due key p = due key (cfg.phase i)) :
    Inv capacity (cfg.put i p cfg.shared) where
  keys := h.keys
  terminated := h.terminated
  unique := h.unique
  phases := Config.forall_put (P := fun _ p => InRange capacity _ p) hInRange fun j _ => h.phases j
  balanced key hKey := by
    rw [Config.balance_put_same]
    · exact h.balanced key hKey
    · rw [hSame]

/-- A slot given to the key of a call that is in no other slot. -/
theorem unique_rewrite {entries : Nat → TopEntry w} (hUnique : ∀ j < capacity, ∀ k < capacity,
    keyText (entries j) ≠ [] → keyText (entries j) = keyText (entries k) → j = k) {slot : Nat} {e : TopEntry w}
    (hOthers : ∀ k < capacity, k ≠ slot → keyText (entries k) ≠ keyText e) {j k : Nat} (hj : j < capacity)
    (hk : k < capacity) (hText : keyText (Function.update entries slot e j) ≠ [])
    (hSame : keyText (Function.update entries slot e j) = keyText (Function.update entries slot e k)) : j = k := by
  by_cases hjs : j = slot <;> by_cases hks : k = slot
  · rw [hjs, hks]
  · rw [hjs, Function.update_self, Function.update_of_ne hks] at hSame
    exact absurd hSame.symm (hOthers k hk hks)
  · rw [hks, Function.update_self, Function.update_of_ne hjs] at hSame
    exact absurd hSame (hOthers j hj hjs)
  · rw [Function.update_of_ne hjs] at hText hSame
    rw [Function.update_of_ne hks] at hSame
    exact hUnique j hj k hk hText hSame

theorem terminated_update {entries : Nat → TopEntry w} (h : ∀ j < capacity, Terminated (entries j)) (slot : Nat)
    {e : TopEntry w} (he : slot < capacity → Terminated e) :
    ∀ j < capacity, Terminated (Function.update entries slot e j) := by
  intro j hj
  by_cases hjs : j = slot
  · rw [hjs, Function.update_self]
    exact he (hjs ▸ hj)
  · rw [Function.update_of_ne hjs]
    exact h j hj

theorem Inv.rewrite {cfg : Config ι (Shared w) (Phase w)} (h : Inv capacity cfg) {i : ι} {c : TopCall w} {slot : Nat}
    (hPhase : cfg.phase i = .critical c slot) (hGuard : Guard capacity cfg (.move i)) :
    Inv capacity (cfg.put i (.finish c slot (freshOps c)) { cfg.shared with
      entries := Function.update cfg.shared.entries slot (freshEntry crc32 c) }) := by
  have hInRange := h.phases i
  rw [hPhase] at hInRange
  rw [Guard, hPhase] at hGuard
  obtain ⟨hKey, hSlot⟩ := hInRange
  obtain ⟨hZero, hOwner, hOthers⟩ := hGuard
  have hFresh := keyText_freshEntry crc32 hKey
  refine ⟨h.keys, terminated_update h.terminated slot fun _ => terminated_freshEntry crc32 hKey.2.1, ?_, ?_, ?_⟩
  · intro j hj k hk
    exact unique_rewrite h.unique (fun k hk hks => hFresh ▸ hOthers k hk hks) hj hk
  · apply Config.forall_put (P := fun _ p => InRange capacity _ p)
    · refine ⟨hKey, hSlot, ?_⟩
      simp only [Config.put_shared, Function.update_self, hFresh]
    · intro j _
      apply (h.phases j).update
      intro hText
      rw [hFresh]
      rcases hOwner with hNone | hSame
      · exact absurd hNone hText
      · exact hSame.symm
  · intro key hNonempty
    have hCounted := counted_update cfg.shared hSlot (freshEntry crc32 c) key 0
      (by simp [hZero, counters_freshEntry])
    rw [Config.balance_put_same]
    · exact h.balanced key hNonempty
    · rw [hCounted, hPhase]
      simp [due, owed, opsTotals_freshOps]

theorem Inv.update {cfg : Config ι (Shared w) (Phase w)} (h : Inv capacity cfg) {i : ι} {c : TopCall w} {slot : Nat}
    {op : EntryOp w} {ops : List (EntryOp w)} (hPhase : cfg.phase i = .finish c slot (op :: ops)) :
    Inv capacity (cfg.put i (.finish c slot ops) { cfg.shared with
      entries := Function.update cfg.shared.entries slot (op.apply (cfg.shared.entries slot)) }) := by
  have hInRange := h.phases i
  rw [hPhase] at hInRange
  obtain ⟨hKey, hSlot, hText⟩ := hInRange
  have hKeeps : ∀ j, keyText (Function.update cfg.shared.entries slot
      (op.apply (cfg.shared.entries slot)) j) = keyText (cfg.shared.entries j) := by
    intro j
    by_cases hjs : j = slot
    · subst hjs
      rw [Function.update_self, keyText_apply]
    · rw [Function.update_of_ne hjs]
  refine ⟨h.keys, terminated_update h.terminated slot fun hj => ?_, ?_, ?_, ?_⟩
  · have hTerminated : Terminated (applyOps [op] _) := terminated_applyOps (h.terminated slot hj)
    exact hTerminated
  · intro j hj k hk hNonempty hSame
    simp only [Config.put_shared, hKeeps] at hNonempty hSame
    exact h.unique j hj k hk hNonempty hSame
  · apply Config.forall_put (P := fun _ p => InRange capacity _ p)
    · refine ⟨hKey, hSlot, ?_⟩
      simp only [Config.put_shared, hKeeps, hText]
    · intro j _
      exact (h.phases j).update (fun _ => keyText_apply op _)
  · intro key hNonempty
    have hCounted := counted_update cfg.shared hSlot
      (op.apply (cfg.shared.entries slot)) key (if c.key = key then op.amount else 0) (by
        rw [keyText_apply, hText, counters_apply]
        split <;> simp)
    rw [Config.balance_put_same]
    · exact h.balanced key hNonempty
    · rw [hCounted, hPhase]
      by_cases hOwn : c.key = key <;> simp [due, owed, opsTotals, hOwn, add_assoc]

theorem Inv.move {cfg : Config ι (Shared w) (Phase w)} (h : Inv capacity cfg) {i : ι} {p : Phase w}
    {entries : Nat → TopEntry w} (hGuard : Guard capacity cfg (.move i))
    (hMoves : Moves crc32 capacity cfg.shared.entries (cfg.phase i) p entries) :
    Inv capacity (cfg.put i p { cfg.shared with entries := entries }) := by
  generalize hPhase : cfg.phase i = q at hMoves
  cases hMoves with
  | quiet _ _ hInRange hSame => exact h.quiet hInRange (hPhase ▸ hSame)
  | rewrite c slot => exact h.rewrite crc32 hPhase hGuard
  | update c slot op ops => exact h.update hPhase

theorem inv_reachable (hCapacity : 0 < capacity) {cfg : Config ι (Shared w) (Phase w)}
    (h : Reaches (step crc32 capacity) (Guard capacity) start cfg) : Inv capacity cfg := by
  refine h.invariant (P := Inv capacity) inv_start ?_
  intro cfg label cfg' hInv hGuard hStep
  cases label with
  | call i c =>
    rw [step] at hStep
    split at hStep
    · rename_i hIdle
      obtain rfl := Option.some.inj hStep
      exact hInv.call hCapacity hIdle hGuard
    · cases hStep
  | move i =>
    obtain ⟨⟨p, entries⟩, hPhase, rfl⟩ := Option.map_eq_some_iff.mp hStep
    exact hInv.move crc32 hGuard (stepPhase_moves crc32 hInv.terminated (hInv.phases i) hPhase)

/-- Once all calls have returned, every used key is in exactly one slot and
the slot counts its calls. -/
def CountsOnceIdle (capacity : Nat) (cfg : Config ι (Shared w) (Phase w)) : Prop :=
  (∀ i, cfg.phase i = .idle) → cfg.shared.made.length < 2 ^ w →
  (cfg.shared.made.map TopCall.key).toFinset.card ≤ capacity →
  ∀ c ∈ cfg.shared.made, ∃ j < capacity, Occupied (cfg.shared.entries j) ∧
    keyText (cfg.shared.entries j) = c.key ∧
    SlotCounts (cfg.shared.entries j) (cfg.shared.made.filter fun d => d.key = c.key) ∧
    ∀ k < capacity, keyText (cfg.shared.entries k) = c.key → k = j

omit [DecidableEq ι] in
theorem Inv.countsOnceIdle {cfg : Config ι (Shared w) (Phase w)} (h : Inv capacity cfg) :
    CountsOnceIdle capacity cfg := by
  intro hIdle hCalls _ c hc
  have hKey := (h.keys c hc).1
  let calls := cfg.shared.made.filter fun d => d.key = c.key
  have hBalance := h.balanced c.key hKey
  rw [Config.balance_of_idle (fun i => by rw [hIdle i]; rfl)] at hBalance
  have hShort : calls.length < 2 ^ w := (List.length_filter_le _ _).trans_lt hCalls
  have hMem : c ∈ calls := List.mem_filter.mpr ⟨hc, by simp⟩
  have hSlot : ∃ j < capacity, keyText (cfg.shared.entries j) = c.key := by
    by_contra hNone
    have hZero : counted capacity c.key cfg.shared = 0 := by
      apply Finset.sum_eq_zero
      intro j hj
      rw [if_neg (fun hText => hNone ⟨j, Finset.mem_range.mp hj, hText⟩)]
    rw [hZero] at hBalance
    have hOccupied := occupied_of_counters (e := zeroedEntry) (hBalance : _ = sumTotals calls)
      (List.ne_nil_of_mem hMem) hShort
    exact hOccupied rfl
  obtain ⟨j, hj, hText⟩ := hSlot
  have hOnly : ∀ k < capacity, keyText (cfg.shared.entries k) = c.key → k = j := by
    intro k hk hSame
    exact h.unique k hk j hj (by rw [hSame]; exact hKey) (hSame.trans hText.symm)
  have hCounters : counters (cfg.shared.entries j) = sumTotals calls := by
    rw [← hBalance, counted, Finset.sum_eq_single j, if_pos hText]
    · intro k hk hNe
      rw [if_neg (fun hSame => hNe (hOnly k (Finset.mem_range.mp hk) hSame))]
    · exact fun hNot => absurd (Finset.mem_range.mpr hj) hNot
  exact ⟨j, hj, occupied_of_counters hCounters (List.ne_nil_of_mem hMem) hShort, hText,
    slotCounts_of_counters hCounters hShort, hOnly⟩

/-- In a run whose critical sections find their slot undisturbed, no hit is
lost or credited to another key. -/
theorem counts_of_undisturbed {cfg : Config ι (Shared w) (Phase w)}
    (h : Reaches (step crc32 capacity) (Guard capacity) start cfg) : CountsOnceIdle capacity cfg := by
  intro hIdle hCalls hUsed c hc
  have hCapacity : 0 < capacity := by
    refine (Finset.card_pos.mpr ⟨c.key, ?_⟩).trans_le hUsed
    exact List.mem_toFinset.mpr (List.mem_map_of_mem hc)
  exact (inv_reachable crc32 hCapacity h).countsOnceIdle hIdle hCalls hUsed c hc

/-- Two workers count `/a` in a table of one slot. The second rewrites the
slot before the first has counted there. -/
def rewrittenEarly : List (Label Bool 64) :=
  [.call false callA, .call true callA, .move false, .move false, .move true, .move true,
    .move false, .move true] ++ List.replicate 4 (.move false) ++ List.replicate 4 (.move true)

theorem counts_of_undisturbed_two_workers :
    ∃ cfg : Config Bool (Shared 64) (Phase 64),
      Reaches (step crc32OfA 1) (Guard 1) start cfg ∧ (∀ i, cfg.phase i = .idle) ∧
        cfg.shared.made = [callA, callA] ∧ CountsOnceIdle 1 cfg := by
  have hRun : ((run (step crc32OfA 1) (Guard 1) start rewrittenEarly).map fun cfg =>
      decide ((∀ i, cfg.phase i = .idle) ∧ cfg.shared.made = [callA, callA])) = some true := by
    decide +kernel
  obtain ⟨cfg, hCfg, hEnd⟩ := Option.map_eq_some_iff.mp hRun
  obtain ⟨hIdle, hMade⟩ := of_decide_eq_true hEnd
  have hReaches := Reaches.of_run hCfg
  exact ⟨cfg, hReaches, hIdle, hMade, counts_of_undisturbed crc32OfA hReaches⟩

/-- The keys are as the limits ask; nothing is asked of the critical sections. -/
def PlainCalls (_ : Config ι (Shared w) (Phase w)) : Label ι w → Prop
  | .call _ c => PlainKey c.key
  | .move _ => True

instance (cfg : Config ι (Shared w) (Phase w)) (l : Label ι w) : Decidable (PlainCalls cfg l) :=
  match l with
  | .call _ c => inferInstanceAs (Decidable (PlainKey c.key))
  | .move _ => isTrue trivial

/-- The second worker chooses the slot before the first rewrites it, and
rewrites it once the first has counted. -/
def rewrittenLate : List (Label Bool 64) :=
  [.call false callA, .call true callA, .move false, .move false, .move true, .move true] ++
    List.replicate 5 (.move false) ++ List.replicate 5 (.move true)

theorem updateTop_loses_hit :
    ∃ cfg : Config Bool (Shared 64) (Phase 64),
      Reaches (step crc32OfA 1) PlainCalls start cfg ∧ ¬ CountsOnceIdle 1 cfg := by
  have hRun : ((run (step crc32OfA 1) PlainCalls start rewrittenLate).map fun cfg =>
      decide ((∀ i, cfg.phase i = .idle) ∧ cfg.shared.made = [callA, callA] ∧
        (cfg.shared.entries 0).hits = 1)) = some true := by
    decide +kernel
  obtain ⟨cfg, hCfg, hEnd⟩ := Option.map_eq_some_iff.mp hRun
  obtain ⟨hIdle, hMade, hHits⟩ := of_decide_eq_true hEnd
  refine ⟨cfg, Reaches.of_run hCfg, fun hCounts => ?_⟩
  obtain ⟨j, hj, -, -, hSlot, -⟩ := hCounts hIdle (by rw [hMade]; decide) (by rw [hMade]; decide)
    callA (by rw [hMade]; exact List.mem_cons_self)
  obtain rfl : j = 0 := by omega
  have hTwo := hSlot.hits
  rw [hHits, hMade] at hTwo
  exact absurd hTwo (by decide)

end HttpMonitoring.TopTableWorkers
