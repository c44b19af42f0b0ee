import HttpMonitoring.TopTableTotals

/-!
# The two slot tables in lock step

`update_top` and `update_upstream_slot` are written out separately. On the same
keys and latencies they hit, fill and evict the same slots and keep the same
keys, counts and latencies in them.
-/

namespace HttpMonitoring.TopTable

open Library.CString Library.SlotTable

variable {w : Nat}

/-- A call on each of the two tables, with the same key, latency and second. -/
structure PairedCall (w : Nat) where
  key : Bytes
  latency : BitVec w
  now : BitVec w
  bytes : Int
  isError : Bool
  status : Nat
deriving DecidableEq

def PairedCall.top (c : PairedCall w) : TopCall w := ⟨c.key, c.latency, c.bytes, c.isError, c.now⟩

def PairedCall.upstream (c : PairedCall w) : UpstreamCall w := ⟨c.key, c.latency, c.status, c.now⟩

/-- What the two records have in common. -/
structure SameSlot (e : TopEntry w) (u : UpstreamEntry w) : Prop where
  count : e.hits = u.requests
  latency : e.latencyMsTotal = u.latencyMsTotal
  lastSeen : e.lastSeen = u.lastSeen
  hash : e.hash = u.hash
  key : e.key = u.peer

def InStep (entries : Nat → TopEntry w) (upstreams : Nat → UpstreamEntry w) : Prop :=
  ∀ i, SameSlot (entries i) (upstreams i)

inductive Outcome
  | ignored
  | hit (slot : Nat)
  | filled (slot : Nat)
  | evicted (slot : Nat)
deriving DecidableEq

/-- What becomes of the slot that the pass proposed, by its count before. -/
def outcomeOf (count : Nat → BitVec w) : Choice → Outcome
  | .found i => .hit i
  | .rewrite i => if count i = 0 then .filled i else .evicted i

section Calls

variable (crc32 : Bytes → BitVec 32) (capacity : Nat)

def chooseUpstream (entries : Nat → UpstreamEntry w) (peer : Bytes) : Choice :=
  scan (fun e => e.requests.toNat) (upstreamHolds crc32 peer) capacity entries (List.range capacity)
    ⟨capacity, 0, 2 ^ w - 1⟩

def topOutcome (entries : Nat → TopEntry w) (key : Bytes) : Outcome :=
  if key.length == 0 || capacity == 0 then .ignored
  else outcomeOf (fun i => (entries i).hits) (chooseSlot crc32 entries capacity key)

def upstreamOutcome (entries : Nat → UpstreamEntry w) (peer : Bytes) : Outcome :=
  if peer.length == 0 || capacity == 0 then .ignored
  else outcomeOf (fun i => (entries i).requests) (chooseUpstream crc32 capacity entries peer)

def upstreamRun (calls : List (UpstreamCall w)) : Nat → UpstreamEntry w :=
  calls.foldl (fun entries c => updateUpstreamSlot crc32 entries capacity c) fun _ => zeroedUpstream

end Calls

theorem SameSlot.countStatus {e : TopEntry w} {u : UpstreamEntry w} (h : SameSlot e u) (status : Nat) :
    SameSlot e (countStatus status u) := by
  rw [TopTable.countStatus]
  split <;> split <;> split <;> exact ⟨h.count, h.latency, h.lastSeen, h.hash, h.key⟩

theorem SameSlot.addErrors {e : TopEntry w} {u : UpstreamEntry w} (h : SameSlot e u) (isError : Bool) :
    SameSlot (applyOps (if isError then [.addErrors] else []) e) u := by
  cases isError with
  | false => exact h
  | true => exact ⟨h.count, h.latency, h.lastSeen, h.hash, h.key⟩

theorem applyOps_append (ops ops' : List (EntryOp w)) (e : TopEntry w) :
    applyOps (ops ++ ops') e = applyOps ops' (applyOps ops e) := List.foldl_append

theorem SameSlot.found {e : TopEntry w} {u : UpstreamEntry w} (h : SameSlot e u) (c : PairedCall w) :
    SameSlot (applyOps (foundOps c.top) e)
      (countUpstream c.upstream { u with lastSeen := c.upstream.now }) := by
  rw [foundOps, applyOps_append]
  refine (SameSlot.addErrors ?_ _).countStatus _
  exact ⟨congrArg (· + 1) h.count, congrArg (· + c.latency) h.latency, rfl, h.hash, h.key⟩

theorem SameSlot.fresh (crc32 : Bytes → BitVec 32) (c : PairedCall w) :
    SameSlot (applyOps (freshOps c.top) (freshEntry crc32 c.top))
      (countUpstream c.upstream (freshUpstream crc32 c.upstream)) := by
  rw [freshOps, applyOps_append]
  refine (SameSlot.addErrors ?_ _).countStatus _
  exact ⟨rfl, rfl, rfl, rfl, rfl⟩

section Steps

variable {crc32 : Bytes → BitVec 32} {capacity : Nat} {entries : Nat → TopEntry w}
  {upstreams : Nat → UpstreamEntry w}

theorem InStep.choice (h : InStep entries upstreams) (key : Bytes) :
    chooseSlot crc32 entries capacity key = chooseUpstream crc32 capacity upstreams key := by
  have hHits : ∀ i, (entries i).hits.toNat = (upstreams i).requests.toNat := fun i => by
    rw [(h i).count]
  have hHolds : ∀ i, entryHolds crc32 key (entries i) = upstreamHolds crc32 key (upstreams i) := by
    intro i
    rw [entryHolds, upstreamHolds, (h i).hash, (h i).key, storedLen]
  rw [chooseSlot, chooseUpstream]
  apply scan_congr
  · exact hHits
  · exact hHolds

theorem InStep.outcome (h : InStep entries upstreams) (key : Bytes) :
    topOutcome crc32 capacity entries key = upstreamOutcome crc32 capacity upstreams key := by
  have hCount : (fun i => (entries i).hits) = fun i => (upstreams i).requests :=
    funext fun i => (h i).count
  rw [topOutcome, upstreamOutcome, h.choice, hCount]

theorem InStep.update (h : InStep entries upstreams) {i : Nat} {e : TopEntry w} {u : UpstreamEntry w}
    (hSlot : SameSlot e u) : InStep (Function.update entries i e) (Function.update upstreams i u) := by
  intro j
  rcases eq_or_ne j i with rfl | hj
  · rw [Function.update_self, Function.update_self]
    exact hSlot
  · rw [Function.update_of_ne hj, Function.update_of_ne hj]
    exact h j

theorem InStep.step (h : InStep entries upstreams) (c : PairedCall w) :
    InStep (updateTop crc32 true entries capacity c.top)
      (updateUpstreamSlot crc32 upstreams capacity c.upstream) := by
  rw [updateTop, updateUpstreamSlot_eq, Bool.not_true, Bool.false_or]
  show InStep (if c.key.length == 0 || capacity == 0 then entries
    else writeSlot crc32 entries c.top (chooseSlot crc32 entries capacity c.key))
    (if c.key.length == 0 || capacity == 0 then upstreams
    else writeUpstream crc32 upstreams c.upstream (chooseUpstream crc32 capacity upstreams c.key))
  rw [h.choice]
  split
  · exact h
  · cases chooseUpstream crc32 capacity upstreams c.key with
    | found i => exact h.update ((h i).found c)
    | rewrite i => exact h.update (.fresh crc32 c)

end Steps

/-- The outcome says which slot the call writes, and how. -/
theorem updateTop_of_outcome (crc32 : Bytes → BitVec 32) (entries : Nat → TopEntry w)
    (capacity : Nat) (c : TopCall w) : updateTop crc32 true entries capacity c =
      match topOutcome crc32 capacity entries c.key with
      | .ignored => entries
      | .hit i => Function.update entries i (applyOps (foundOps c) (entries i))
      | .filled i | .evicted i =>
        Function.update entries i (applyOps (freshOps c) (freshEntry crc32 c)) := by
  rw [updateTop, topOutcome, Bool.not_true, Bool.false_or]
  split
  · rfl
  · cases chooseSlot crc32 entries capacity c.key with
    | found i => rfl
    | rewrite i =>
      by_cases hEmpty : (entries i).hits = 0
      · simp only [outcomeOf, if_pos hEmpty, writeSlot]
      · simp only [outcomeOf, if_neg hEmpty, writeSlot]

theorem updateUpstreamSlot_of_outcome (crc32 : Bytes → BitVec 32) (entries : Nat → UpstreamEntry w)
    (capacity : Nat) (c : UpstreamCall w) : updateUpstreamSlot crc32 entries capacity c =
      match upstreamOutcome crc32 capacity entries c.peer with
      | .ignored => entries
      | .hit i => Function.update entries i (countUpstream c { entries i with lastSeen := c.now })
      | .filled i | .evicted i => Function.update entries i (countUpstream c (freshUpstream crc32 c)) := by
  rw [updateUpstreamSlot_eq, upstreamOutcome, ← chooseUpstream]
  split
  · rfl
  · cases chooseUpstream crc32 capacity entries c.peer with
    | found i => rfl
    | rewrite i =>
      by_cases hEmpty : (entries i).requests = 0
      · simp only [outcomeOf, if_pos hEmpty, writeUpstream]
      · simp only [outcomeOf, if_neg hEmpty, writeUpstream]

/-- After any calls the tables are in step, and the next call does the same to
both. -/
theorem tables_in_lockstep (crc32 : Bytes → BitVec 32) (capacity : Nat) (calls : List (PairedCall w)) :
    InStep (topRun crc32 capacity (calls.map PairedCall.top))
        (upstreamRun crc32 capacity (calls.map PairedCall.upstream)) ∧
      ∀ c : PairedCall w,
        topOutcome crc32 capacity (topRun crc32 capacity (calls.map PairedCall.top)) c.key =
          upstreamOutcome crc32 capacity
            (upstreamRun crc32 capacity (calls.map PairedCall.upstream)) c.key := by
  have hInStep : InStep (topRun crc32 capacity (calls.map PairedCall.top))
      (upstreamRun crc32 capacity (calls.map PairedCall.upstream)) := by
    induction calls using List.reverseRecOn with
    | nil => exact fun _ => ⟨rfl, rfl, rfl, rfl, rfl⟩
    | append_singleton calls c ih =>
      rw [topRun, upstreamRun, List.map_append, List.map_append, List.foldl_append, List.foldl_append]
      exact ih.step c
  exact ⟨hInStep, fun c => hInStep.outcome c.key⟩

end HttpMonitoring.TopTable
