import HttpMonitoring.Layout
import HttpMonitoring.Library.CString
import HttpMonitoring.Library.SlotTable

/-!
# The bounded slot tables

`update_top` and `update_upstream_slot` run the same pass over their slots and
then apply a short list of updates to one slot. The second one is its own loop
here; that of the first is taken apart where several workers call it. The checksum `crc32` is the
core's `ngx_crc32_short`.
-/

namespace HttpMonitoring.TopTable

open Library.CString Library.SlotTable

variable {w : Nat} (crc32 : Bytes → BitVec 32)

def hash (value : Bytes) : BitVec 32 := crc32 value

/-- The stored part of a key; the last cell of the buffer keeps the terminator. -/
def storedLen (key : Bytes) : Nat := min key.length (keyLen - 1)

/-- One call of `update_top`, with the clock second it reads. -/
structure TopCall (w : Nat) where
  key : Bytes
  latency : BitVec w
  bytes : Int
  isError : Bool
  now : BitVec w
deriving DecidableEq

def zeroedEntry : TopEntry w := ⟨0, 0, 0, 0, 0, 0, fill keyLen []⟩

def zeroedTable : Nat → TopEntry w := fun _ => zeroedEntry

def entryHolds (key : Bytes) (e : TopEntry w) : Bool :=
  e.hash == hash crc32 key && strncmpEq (storedLen key) e.key key &&
    e.key.getD (storedLen key) 0 == 0

/-- The single updates of a slot, each an atomic addition or a plain store. -/
inductive EntryOp (w : Nat)
  | addHits
  | addBytes (amount : BitVec w)
  | addLatency (amount : BitVec w)
  | storeLastSeen (now : BitVec w)
  | addErrors
deriving DecidableEq

def EntryOp.apply : EntryOp w → TopEntry w → TopEntry w
  | .addHits, e => { e with hits := e.hits + 1 }
  | .addBytes amount, e => { e with bytes := e.bytes + amount }
  | .addLatency amount, e => { e with latencyMsTotal := e.latencyMsTotal + amount }
  | .storeLastSeen now, e => { e with lastSeen := now }
  | .addErrors, e => { e with errors := e.errors + 1 }

def applyOps (ops : List (EntryOp w)) (e : TopEntry w) : TopEntry w :=
  ops.foldl (fun e op => op.apply e) e

def foundOps (c : TopCall w) : List (EntryOp w) :=
  [.addHits, .addBytes (BitVec.ofInt w c.bytes), .addLatency c.latency, .storeLastSeen c.now] ++
    if c.isError then [.addErrors] else []

/-- The updates that follow the critical section. -/
def freshOps (c : TopCall w) : List (EntryOp w) :=
  [.addHits, .addBytes (BitVec.ofInt w c.bytes), .addLatency c.latency] ++
    if c.isError then [.addErrors] else []

/-- What the critical section leaves in the slot. -/
def freshEntry (c : TopCall w) : TopEntry w :=
  { zeroedEntry with
    key := fill keyLen (c.key.take (storedLen c.key))
    hash := hash crc32 c.key
    lastSeen := c.now }

def chooseSlot (entries : Nat → TopEntry w) (capacity : Nat) (key : Bytes) : Choice :=
  scan (fun e => e.hits.toNat) (entryHolds crc32 key) capacity entries (List.range capacity)
    ⟨capacity, 0, 2 ^ w - 1⟩

def writeSlot (entries : Nat → TopEntry w) (c : TopCall w) : Choice → Nat → TopEntry w
  | .found i => Function.update entries i (applyOps (foundOps c) (entries i))
  | .rewrite i => Function.update entries i (applyOps (freshOps c) (freshEntry crc32 c))

def updateTop (shpool : Bool) (entries : Nat → TopEntry w) (capacity : Nat) (c : TopCall w) :
    Nat → TopEntry w :=
  if !shpool || c.key.length == 0 || capacity == 0 then entries
  else writeSlot crc32 entries c (chooseSlot crc32 entries capacity c.key)

/-- Hits, bytes, latency and errors, as a slot or a call counts them. -/
abbrev Totals (w : Nat) := BitVec w × BitVec w × BitVec w × BitVec w

def counters (e : TopEntry w) : Totals w := (e.hits, e.bytes, e.latencyMsTotal, e.errors)

def callTotals (c : TopCall w) : Totals w :=
  (1, BitVec.ofInt w c.bytes, c.latency, if c.isError then 1 else 0)

def EntryOp.amount : EntryOp w → Totals w
  | .addHits => (1, 0, 0, 0)
  | .addBytes amount => (0, amount, 0, 0)
  | .addLatency amount => (0, 0, amount, 0)
  | .storeLastSeen _ => 0
  | .addErrors => (0, 0, 0, 1)

def opsTotals (ops : List (EntryOp w)) : Totals w := (ops.map EntryOp.amount).sum

theorem counters_apply (op : EntryOp w) (e : TopEntry w) :
    counters (op.apply e) = counters e + op.amount := by
  cases op <;> simp [counters, EntryOp.apply, EntryOp.amount]

@[simp] theorem apply_key (op : EntryOp w) (e : TopEntry w) : (op.apply e).key = e.key := by
  cases op <;> rfl

@[simp] theorem apply_hash (op : EntryOp w) (e : TopEntry w) : (op.apply e).hash = e.hash := by
  cases op <;> rfl

theorem counters_applyOps (ops : List (EntryOp w)) (e : TopEntry w) :
    counters (applyOps ops e) = counters e + opsTotals ops := by
  induction ops generalizing e with
  | nil => simp [applyOps, opsTotals]
  | cons op ops ih =>
    have hTail := ih (op.apply e)
    rw [counters_apply] at hTail
    simpa [applyOps, opsTotals, add_assoc] using hTail

theorem applyOps_identity (ops : List (EntryOp w)) (e : TopEntry w) :
    (applyOps ops e).key = e.key ∧ (applyOps ops e).hash = e.hash := by
  induction ops generalizing e with
  | nil => exact ⟨rfl, rfl⟩
  | cons op ops ih => simpa [applyOps] using ih (op.apply e)

theorem opsTotals_foundOps (c : TopCall w) : opsTotals (foundOps c) = callTotals c := by
  cases h : c.isError <;> simp [opsTotals, foundOps, EntryOp.amount, callTotals, h]

theorem opsTotals_freshOps (c : TopCall w) : opsTotals (freshOps c) = callTotals c := by
  cases h : c.isError <;> simp [opsTotals, freshOps, EntryOp.amount, callTotals, h]

theorem counters_freshEntry (c : TopCall w) : counters (freshEntry crc32 c) = 0 := rfl

/-- What tells two keys apart: the checksum and the stored prefix. -/
abbrev KeyId := BitVec 32 × Bytes

def keyId (key : Bytes) : KeyId := (hash crc32 key, key.take (storedLen key))

def entryId (e : TopEntry w) : KeyId := (e.hash, text e.key)

/-- The key buffer holds a terminated string. -/
def Terminated (e : TopEntry w) : Prop :=
  ∃ s : Bytes, (0 : UInt8) ∉ s ∧ s.length < keyLen ∧ e.key = fill keyLen s

theorem storedLen_le (key : Bytes) : storedLen key ≤ key.length := Nat.min_le_left _ _

theorem storedLen_lt (key : Bytes) : storedLen key < keyLen :=
  Nat.lt_of_le_of_lt (Nat.min_le_right _ _) (by decide)

theorem keyMatches_iff {key : Bytes} (hKey : (0 : UInt8) ∉ key) {e : TopEntry w}
    (he : Terminated e) : (strncmpEq (storedLen key) e.key key &&
      e.key.getD (storedLen key) 0 == 0) = true ↔ text e.key = key.take (storedLen key) := by
  obtain ⟨s, hs, hLength, hBuffer⟩ := he
  rw [Bool.and_eq_true, beq_iff_eq, hBuffer,
    fill_matches_iff hs hKey (storedLen key) (storedLen_le key) hLength, text_fill hs]

theorem entryHolds_iff {key : Bytes} (hKey : (0 : UInt8) ∉ key) {e : TopEntry w}
    (he : Terminated e) : entryHolds crc32 key e = true ↔ entryId e = keyId crc32 key := by
  rw [entryHolds, Bool.and_assoc, Bool.and_eq_true, beq_iff_eq, keyMatches_iff hKey he,
    entryId, keyId, Prod.mk.injEq]

theorem terminated_zeroedEntry : Terminated (zeroedEntry : TopEntry w) :=
  ⟨[], by simp, by decide, rfl⟩

theorem terminated_freshEntry {c : TopCall w} (hKey : (0 : UInt8) ∉ c.key) :
    Terminated (freshEntry crc32 c) :=
  ⟨c.key.take (storedLen c.key), fun h => hKey (List.mem_of_mem_take h),
    by rw [List.length_take_of_le (storedLen_le _)]; exact storedLen_lt _, rfl⟩

theorem entryId_freshEntry {c : TopCall w} (hKey : (0 : UInt8) ∉ c.key) :
    entryId (freshEntry crc32 c) = keyId crc32 c.key := by
  have hPrefix : (0 : UInt8) ∉ c.key.take (storedLen c.key) := fun h => hKey (List.mem_of_mem_take h)
  rw [entryId, keyId, freshEntry, text_fill hPrefix]

theorem entryId_zeroedEntry : entryId (zeroedEntry : TopEntry w) = (0, []) := by
  rw [entryId, zeroedEntry, text_fill (by simp)]

theorem entryId_applyOps (ops : List (EntryOp w)) (e : TopEntry w) :
    entryId (applyOps ops e) = entryId e := by
  rw [entryId, entryId, (applyOps_identity ops e).1, (applyOps_identity ops e).2]

theorem terminated_applyOps {ops : List (EntryOp w)} {e : TopEntry w} (h : Terminated e) :
    Terminated (applyOps ops e) := by
  rw [Terminated, (applyOps_identity ops e).1]
  exact h

theorem entryId_zeroedEntry_ne {key : Bytes} (hKey : key ≠ []) :
    entryId (zeroedEntry : TopEntry w) ≠ keyId crc32 key := by
  rw [entryId_zeroedEntry]
  intro h
  have hPrefix : [] = key.take (storedLen key) := congrArg Prod.snd h
  cases key with
  | nil => exact hKey rfl
  | cons b key => simp [storedLen, keyLen] at hPrefix

/-- One call of `update_upstream_slot`, with the clock second it reads. -/
structure UpstreamCall (w : Nat) where
  peer : Bytes
  latency : BitVec w
  status : Nat
  now : BitVec w
deriving DecidableEq

def zeroedUpstream : UpstreamEntry w := ⟨0, 0, 0, 0, 0, 0, 0, fill keyLen []⟩

def upstreamHolds (peer : Bytes) (e : UpstreamEntry w) : Bool :=
  e.hash == hash crc32 peer && strncmpEq (min peer.length (keyLen - 1)) e.peer peer &&
    e.peer.getD (min peer.length (keyLen - 1)) 0 == 0

def upstreamFailure (status : Nat) : Bool := status == 0 || 500 ≤ status

def countStatus (status : Nat) (e : UpstreamEntry w) : UpstreamEntry w :=
  let e := if upstreamFailure status then { e with failures := e.failures + 1 } else e
  let e := if 400 ≤ status ∧ status < 500 then { e with status4xx := e.status4xx + 1 } else e
  if 500 ≤ status then { e with status5xx := e.status5xx + 1 } else e

/-- The additions both branches of the source spell out. -/
def countUpstream (c : UpstreamCall w) (e : UpstreamEntry w) : UpstreamEntry w :=
  countStatus c.status
    { e with requests := e.requests + 1, latencyMsTotal := e.latencyMsTotal + c.latency }

def freshUpstream (c : UpstreamCall w) : UpstreamEntry w :=
  { zeroedUpstream with
    peer := fill keyLen (c.peer.take (min c.peer.length (keyLen - 1)))
    hash := hash crc32 c.peer
    lastSeen := c.now }

/-- The loop over the slots from `i` on, of which `n` are left, and what follows it
when none of them holds the peer. -/
def upstreamLoop (entries : Nat → UpstreamEntry w) (capacity : Nat) (c : UpstreamCall w) :
    (n i empty victim : Nat) → (minHits : BitVec w) → Nat → UpstreamEntry w
  | 0, _, empty, victim, _ =>
    let i := if empty ≠ capacity then empty else victim
    Function.update entries i (countUpstream c (freshUpstream crc32 c))
  | n + 1, i, empty, victim, minHits =>
    if (entries i).requests = 0 ∧ empty = capacity then
      upstreamLoop entries capacity c n (i + 1) i victim minHits
    else if upstreamHolds crc32 c.peer (entries i) then
      Function.update entries i (countUpstream c { entries i with lastSeen := c.now })
    else if (entries i).requests < minHits then
      upstreamLoop entries capacity c n (i + 1) empty i (entries i).requests
    else upstreamLoop entries capacity c n (i + 1) empty victim minHits

def updateUpstreamSlot (entries : Nat → UpstreamEntry w) (capacity : Nat) (c : UpstreamCall w) :
    Nat → UpstreamEntry w :=
  if c.peer.length == 0 || capacity == 0 then entries
  else upstreamLoop crc32 entries capacity c capacity 0 capacity 0 (-1)

def writeUpstream (entries : Nat → UpstreamEntry w) (c : UpstreamCall w) : Choice → Nat → UpstreamEntry w
  | .found i => Function.update entries i (countUpstream c { entries i with lastSeen := c.now })
  | .rewrite i => Function.update entries i (countUpstream c (freshUpstream crc32 c))

theorem upstreamLoop_eq (entries : Nat → UpstreamEntry w) (capacity : Nat) (c : UpstreamCall w)
    (n i empty victim : Nat) (minHits : BitVec w) :
    upstreamLoop crc32 entries capacity c n i empty victim minHits =
      writeUpstream crc32 entries c (scan (fun e => e.requests.toNat) (upstreamHolds crc32 c.peer) capacity entries
        (List.range' i n) ⟨empty, victim, minHits.toNat⟩) := by
  induction n generalizing i empty victim minHits with
  | zero => rfl
  | succ n ih =>
    have hEmpty : (entries i).requests.toNat = 0 ↔ (entries i).requests = 0 :=
      ⟨fun h => BitVec.eq_of_toNat_eq h, fun h => h ▸ rfl⟩
    rw [upstreamLoop, List.range'_succ, scan, ih, ih, ih]
    simp only [hEmpty, BitVec.lt_def]
    split_ifs <;> rfl

/-- The loop is the pass over the slots. -/
theorem updateUpstreamSlot_eq (entries : Nat → UpstreamEntry w) (capacity : Nat) (c : UpstreamCall w) :
    updateUpstreamSlot crc32 entries capacity c =
      if c.peer.length == 0 || capacity == 0 then entries
      else writeUpstream crc32 entries c (scan (fun e => e.requests.toNat) (upstreamHolds crc32 c.peer) capacity
        entries (List.range capacity) ⟨capacity, 0, 2 ^ w - 1⟩) := by
  have hTop : (-1 : BitVec w).toNat = 2 ^ w - 1 := by
    rw [show (-1 : BitVec w) = BitVec.allOnes w from BitVec.neg_one_eq_allOnes, BitVec.toNat_allOnes]
  rw [updateUpstreamSlot, upstreamLoop_eq, hTop, List.range_eq_range']

end HttpMonitoring.TopTable
