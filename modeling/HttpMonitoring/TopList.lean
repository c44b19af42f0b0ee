import HttpMonitoring.JsonNames
import HttpMonitoring.JsonDocument
import HttpMonitoring.Library.InsertionSort

/-!
# The published top lists

`json_top_entries` copies the slots with hits behind one another and sorts the
copies in place. Both loops are written out here, and what they emit is read
off from the list of the slots in their published order.
-/

namespace HttpMonitoring.TopList

open Library.BoundedWriter Library.CString Library.JsonText Library.InsertionSort TopTable JsonWriter
  JsonSections JsonNames JsonDocument

variable {w : Nat}

def zeroedView : TopView w := ⟨List.replicate keyLen 0, 0, 0, 0, 0, 0⟩

def zeroedViews : Nat → TopView w := fun _ => zeroedView

/-- One slot in the loop over the table: the copies and how many there are. -/
def copyView (entries : Nat → TopEntry w) (copied : (Nat → TopView w) × Nat) (i : Nat) :
    (Nat → TopView w) × Nat :=
  let (view, n) := copied
  if (entries i).hits = 0 then (view, n) else (Function.update view n (viewOf (entries i)), n + 1)

def copyViews (entries : Nat → TopEntry w) (capacity : Nat) : (Nat → TopView w) × Nat :=
  (List.range capacity).foldl (copyView entries) (zeroedViews, 0)

def viewRank (v : TopView w) : Nat := v.hits.toNat

/-- `sort_top`. -/
def sortViews (v : Nat → TopView w) (n : Nat) : Nat → TopView w := sort viewRank n v

/-- `json_top_entries`; `allocated` says whether the pool has room for the copies. -/
def topEntries (R : Vslprintf w) (allocated : Bool) (entries : Nat → TopEntry w) (capacity : Nat)
    (keyName : String) (jw : Jw) : Jw :=
  if !allocated then jw.fail
  else
    let (view, n) := copyViews entries capacity
    let view := sortViews view n
    jw |> jsonAppend (ascii "[") |> forEach n (fun i => jsonTopEntry R keyName (view i))
      |> jsonAppend (ascii "]")

theorem copyViews_spec (entries : Nat → TopEntry w) (capacity : Nat) :
    cells (copyViews entries capacity).1 (copyViews entries capacity).2 = topViews entries capacity := by
  induction capacity with
  | zero => rfl
  | succ capacity ih =>
    have hStep : copyViews entries (capacity + 1) = copyView entries (copyViews entries capacity) capacity := by
      rw [copyViews, List.range_succ, List.foldl_append, List.foldl_cons, List.foldl_nil, copyViews]
    have hViews : topViews entries (capacity + 1) = topViews entries capacity ++
        if (entries capacity).hits = 0 then [] else [viewOf (entries capacity)] := by
      rw [topViews, List.range_succ, List.filter_append, List.map_append, topViews]
      by_cases hEmpty : (entries capacity).hits = 0
      · rw [if_pos hEmpty, List.filter_cons_of_neg (by simpa using hEmpty)]
        rfl
      · rw [if_neg hEmpty, List.filter_cons_of_pos (by simpa using hEmpty)]
        rfl
    rw [hStep, hViews, ← ih, copyView]
    split
    · rw [List.append_nil]
    · dsimp only
      rw [cells_succ, cells_update _ le_rfl, Function.update_self]

theorem insertDown_eq (tmp : TopView w) (sorted : List (TopView w)) :
    JsonSections.insertDown tmp sorted = Library.InsertionSort.insertDown viewRank tmp sorted := by
  induction sorted with
  | nil => rfl
  | cons v rest ih => rw [JsonSections.insertDown, Library.InsertionSort.insertDown, ih, viewRank, viewRank]

theorem sortTop_eq (views : List (TopView w)) : sortTop views = (insertAll viewRank views).reverse := by
  have hPass : JsonSections.insertDown = Library.InsertionSort.insertDown (viewRank (w := w)) :=
    funext₂ insertDown_eq
  rw [sortTop, insertAll, hPass]

theorem cells_sortViews (entries : Nat → TopEntry w) (capacity : Nat) :
    cells (sortViews (copyViews entries capacity).1 (copyViews entries capacity).2)
      (copyViews entries capacity).2 = sortTop (topViews entries capacity) := by
  rw [sortViews, cells_sort, copyViews_spec, sortTop_eq]

theorem forEach_congr {n : Nat} {body body' : Nat → Jw → Jw} (h : ∀ i < n, body i = body' i) :
    forEach n body = forEach n body' := by
  funext jw
  rw [forEach, forEach]
  exact List.foldl_ext _ _ jw fun _ i hi => by rw [h i (List.mem_range.mp hi)]

/-- The loops over arrays do what the section of the document does with lists. -/
theorem topEntries_eq (R : Vslprintf w) (allocated : Bool) (entries : Nat → TopEntry w)
    (capacity : Nat) (keyName : String) :
    topEntries R allocated entries capacity keyName =
      jsonTopEntries R allocated entries capacity keyName := by
  funext jw
  have hSorted := cells_sortViews entries capacity
  have hCount : (sortTop (topViews entries capacity)).length = (copyViews entries capacity).2 := by
    rw [← hSorted, cells, List.length_map, List.length_range]
  rw [topEntries, jsonTopEntries]
  refine congrArg (fun written : Jw => if !allocated then jw.fail else written) ?_
  dsimp only
  rw [hCount]
  refine congrArg (fun loop : Jw → Jw => jsonAppend (ascii "]") (loop (jsonAppend (ascii "[") jw))) ?_
  refine forEach_congr fun i hi => ?_
  rw [← hSorted, cells, List.getD_eq_getElem _ _ (by simpa using hi), List.getElem_map, List.getElem_range]

section Order

variable (entries : Nat → TopEntry w) (capacity : Nat)

def slotHits (i : Nat) : Nat := (entries i).hits.toNat

/-- The slots with hits, each once, by falling hits and then by their place. -/
structure PublishedOrder (slots : List Nat) : Prop where
  distinct : slots.Nodup
  occupied : ∀ i, i ∈ slots ↔ i < capacity ∧ (entries i).hits ≠ 0
  falling : slots.Pairwise fun i j =>
    slotHits entries j < slotHits entries i ∨ slotHits entries i = slotHits entries j ∧ i < j

def occupiedSlots : List Nat := (List.range capacity).filter fun i => (entries i).hits ≠ 0

def publishedSlots : List Nat := (insertAll (slotHits entries) (occupiedSlots entries capacity)).reverse

theorem publishedOrder_publishedSlots :
    PublishedOrder entries capacity (publishedSlots entries capacity) := by
  have hPerm : (publishedSlots entries capacity).Perm (occupiedSlots entries capacity) :=
    (List.reverse_perm _).trans (insertAll_perm _)
  have hAscending : (occupiedSlots entries capacity).Pairwise (· < ·) :=
    List.pairwise_lt_range.filter _
  refine ⟨?_, fun i => ?_, ?_⟩
  · exact hPerm.nodup_iff.mpr (List.nodup_range.filter _)
  · rw [hPerm.mem_iff, occupiedSlots, List.mem_filter, List.mem_range, decide_eq_true_eq]
  · exact List.pairwise_reverse.mpr (insertAll_pairwise hAscending)

theorem sortTop_topViews : sortTop (topViews entries capacity) =
    (publishedSlots entries capacity).map fun i => viewOf (entries i) := by
  have hViews : topViews entries capacity =
      (occupiedSlots entries capacity).map fun i => viewOf (entries i) := rfl
  rw [sortTop_eq, hViews, insertAll_map, ← List.map_reverse]
  rfl

end Order

/-- The key as it is copied: cut off where an array of its size has no room for
the terminator. -/
def shownKey (e : TopEntry w) : Bytes := (text e.key).take (keyLen - 1)

theorem shownKey_eq_text {e : TopEntry w} (hSize : e.key.length = keyLen) (hEnd : 0 ∈ e.key) :
    shownKey e = text e.key := by
  have hShort := text_length_lt hEnd
  exact List.take_of_length_le (by omega)

/-- The element of a slot, from its own fields. -/
def slotValue (R : Vslprintf w) (keyName : String) (e : TopEntry w) : Value :=
  fields [keyName, "hits", "errors", "bytes", "avg_latency", "last_seen"]
    [.string (escaped R (shownKey e)), word R e.hits, word R e.errors, word R e.bytes,
    fixed R 3 (average e.latencyMsTotal e.hits), word R e.lastSeen]

theorem topEntryValue_viewOf (R : Vslprintf w) (keyName : String) (e : TopEntry w) :
    topEntryValue R keyName (viewOf e) = slotValue R keyName e := by
  have hPlain : (0 : UInt8) ∉ (text e.key).take (keyLen - 1) := by
    intro h
    have hByte := List.mem_takeWhile_imp (List.mem_of_mem_take h)
    simp at hByte
  have hKey : text (viewOf e).key = shownKey e := text_fill hPlain keyLen
  rw [topEntryValue, name, hKey, slotValue]
  rfl

theorem topEntriesValue_eq (R : Vslprintf w) (entries : Nat → TopEntry w) (capacity : Nat)
    (keyName : String) : topEntriesValue R entries capacity keyName =
      .array ((publishedSlots entries capacity).map fun i => slotValue R keyName (entries i)) := by
  rw [topEntriesValue, sortTop_topViews, List.map_map]
  exact congrArg Value.array (List.map_congr_left fun i _ => topEntryValue_viewOf R keyName (entries i))

/-- Whatever is in the table, the array emitted has one element for each slot
with hits, from the fields of that slot, in the published order; the writer
does not fail when the copies are allocated and there is room for the array. -/
theorem topEntries_publishes_table (R : Vslprintf w) (entries : Nat → TopEntry w) (capacity : Nat)
    (keyName : String) : ∃ slots, PublishedOrder entries capacity slots ∧
      let list := (Value.array (slots.map fun i => slotValue R keyName (entries i))).text
      (∀ allocated jw, (topEntries R allocated entries capacity keyName jw).failed = false →
        (topEntries R allocated entries capacity keyName jw).out = jw.out ++ list) ∧
      (∀ jw : Jw, jw.failed = false → list.length + 1 < jw.room →
        (topEntries R true entries capacity keyName jw).failed = false) ∧
      ∀ i, (entries i).key.length = keyLen → 0 ∈ (entries i).key →
        shownKey (entries i) = text (entries i).key := by
  refine ⟨publishedSlots entries capacity, publishedOrder_publishedSlots entries capacity, ?_, ?_, ?_⟩
  · intro allocated jw hWritten
    rw [topEntries_eq] at hWritten ⊢
    have hRenders : Renders (allocated = true) (jsonTopEntries R allocated entries capacity keyName) _ :=
      renders_topEntries R id entries capacity keyName
    rw [(hRenders.emits jw hWritten).1, topEntriesValue_eq]
  · intro jw hOpen hRoom
    rw [← topEntriesValue_eq] at hRoom
    rw [topEntries_eq]
    exact (renders_topEntries R id entries capacity keyName).fits rfl jw hOpen hRoom
  · exact fun i => shownKey_eq_text

end HttpMonitoring.TopList
