import Mathlib

/-!
# Insertion sort in place

Every element of an array moves to the front past the elements with a smaller
rank. Elements of the same rank keep the order in which they arrived.
-/

namespace HttpMonitoring.Library.InsertionSort

variable {α : Type*} (rank : α → Nat)

/-- The inner loop shifts elements up while their rank is smaller than that of
`tmp`, and leaves a hole. -/
def shiftUp (tmp : α) : Nat → (Nat → α) → Nat × (Nat → α)
  | 0, v => (0, v)
  | j + 1, v =>
    if rank (v j) < rank tmp then shiftUp tmp j (Function.update v (j + 1) (v j)) else (j + 1, v)

def insertAt (tmp : α) (i : Nat) (v : Nat → α) : Nat → α :=
  let (j, v) := shiftUp rank tmp i v
  Function.update v j tmp

def sort (n : Nat) (v : Nat → α) : Nat → α :=
  (List.range' 1 (n - 1)).foldl (fun v i => insertAt rank (v i) i v) v

/-- The first `n` elements. -/
def cells (v : Nat → α) (n : Nat) : List α := (List.range n).map v

/-- One pass; the sorted part is kept back to front. -/
def insertDown (tmp : α) : List α → List α
  | [] => [tmp]
  | a :: rest => if rank a < rank tmp then a :: insertDown tmp rest else tmp :: a :: rest

def insertAll (elements : List α) : List α :=
  elements.foldl (fun sorted tmp => insertDown rank tmp sorted) []

variable {rank}

theorem insertDown_perm (tmp : α) (sorted : List α) : (insertDown rank tmp sorted).Perm (tmp :: sorted) := by
  induction sorted with
  | nil => exact .rfl
  | cons a rest ih =>
    rw [insertDown]
    split
    · exact (ih.cons a).trans (.swap tmp a rest)
    · exact .rfl

theorem insertAll_perm (elements : List α) : (insertAll rank elements).Perm elements := by
  induction elements using List.reverseRecOn with
  | nil => exact .rfl
  | append_singleton elements tmp ih =>
    rw [insertAll, List.foldl_append, List.foldl_cons, List.foldl_nil, ← insertAll]
    exact ((insertDown_perm tmp _).trans (ih.cons tmp)).trans (List.perm_append_singleton tmp elements).symm

theorem insertDown_map {β : Type*} (f : β → α) (tmp : β) (sorted : List β) :
    insertDown rank (f tmp) (sorted.map f) = (insertDown (fun b => rank (f b)) tmp sorted).map f := by
  induction sorted with
  | nil => rfl
  | cons b rest ih =>
    rw [List.map_cons, insertDown, insertDown, ih]
    split <;> rfl

/-- The sort looks at the ranks only. -/
theorem insertAll_map {β : Type*} (f : β → α) (elements : List β) :
    insertAll rank (elements.map f) = (insertAll (fun b => rank (f b)) elements).map f := by
  induction elements using List.reverseRecOn with
  | nil => rfl
  | append_singleton elements tmp ih =>
    simp only [insertAll, List.map_append, List.map_cons, List.map_nil, List.foldl_append, List.foldl_cons,
      List.foldl_nil] at ih ⊢
    rw [ih, insertDown_map]

variable (rank) in
/-- Of two elements the one with the larger rank comes first; of the same rank,
the one that arrived first. -/
def Precedes (arrived : α → α → Prop) (a b : α) : Prop :=
  rank b < rank a ∨ rank a = rank b ∧ arrived a b

theorem Precedes.le {arrived : α → α → Prop} {a b : α} (h : Precedes rank arrived a b) :
    rank b ≤ rank a := by
  rcases h with hLess | ⟨hSame, -⟩
  · exact hLess.le
  · exact hSame.ge

theorem precedes_of_le {arrived : α → α → Prop} {a b : α} (h : rank b ≤ rank a) (hArrived : arrived a b) :
    Precedes rank arrived a b := by
  rcases h.lt_or_eq with hLess | hSame
  · exact Or.inl hLess
  · exact Or.inr ⟨hSame.symm, hArrived⟩

section Order

variable {arrived : α → α → Prop}

theorem insertDown_pairwise {tmp : α} {sorted : List α}
    (h : sorted.Pairwise fun b a => Precedes rank arrived a b) (hLast : ∀ a ∈ sorted, arrived a tmp) :
    (insertDown rank tmp sorted).Pairwise fun b a => Precedes rank arrived a b := by
  induction sorted with
  | nil => exact List.pairwise_singleton _ _
  | cons a rest ih =>
    obtain ⟨hHead, hRest⟩ := List.pairwise_cons.mp h
    obtain ⟨hArrived, hBefore⟩ := List.forall_mem_cons.mp hLast
    rw [insertDown]
    split
    · rename_i hLess
      refine List.pairwise_cons.mpr ⟨fun b hb => ?_, ih hRest hBefore⟩
      rcases List.mem_cons.mp ((insertDown_perm tmp rest).mem_iff.mp hb) with rfl | hb
      · exact Or.inl hLess
      · exact hHead b hb
    · rename_i hNot
      refine List.pairwise_cons.mpr ⟨List.forall_mem_cons.mpr ⟨?_, fun b hb => ?_⟩, h⟩
      · exact precedes_of_le (not_lt.mp hNot) hArrived
      · exact precedes_of_le ((not_lt.mp hNot).trans (hHead b hb).le) (hBefore b hb)

/-- Stability: elements of one rank stay in the order of the list. -/
theorem insertAll_pairwise {elements : List α} (h : elements.Pairwise arrived) :
    (insertAll rank elements).Pairwise fun b a => Precedes rank arrived a b := by
  induction elements using List.reverseRecOn with
  | nil => exact List.Pairwise.nil
  | append_singleton elements tmp ih =>
    obtain ⟨hEarlier, -, hLast⟩ := List.pairwise_append.mp h
    rw [insertAll, List.foldl_append, List.foldl_cons, List.foldl_nil, ← insertAll]
    refine insertDown_pairwise (ih hEarlier) fun a ha => ?_
    exact hLast a ((insertAll_perm elements).mem_iff.mp ha) tmp List.mem_cons_self

end Order

theorem cells_succ (v : Nat → α) (n : Nat) : cells v (n + 1) = cells v n ++ [v n] := by
  rw [cells, List.range_succ, List.map_append, List.map_singleton, cells]

theorem reverse_cells_succ (v : Nat → α) (n : Nat) :
    (cells v (n + 1)).reverse = v n :: (cells v n).reverse := by
  rw [cells_succ, List.reverse_append, List.reverse_singleton, List.singleton_append]

theorem cells_congr {v v' : Nat → α} {n : Nat} (h : ∀ p < n, v' p = v p) : cells v' n = cells v n :=
  List.map_congr_left fun p hp => h p (List.mem_range.mp hp)

theorem cells_update (v : Nat → α) {n p : Nat} (h : n ≤ p) (a : α) :
    cells (Function.update v p a) n = cells v n :=
  cells_congr fun q hq => Function.update_of_ne (by omega) a v

variable (rank) in
/-- A pass inserts `tmp` into the cells before the hole it starts from, and
writes no cell behind it. -/
theorem insertAt_spec (tmp : α) (i : Nat) (v : Nat → α) :
    (cells (insertAt rank tmp i v) (i + 1)).reverse = insertDown rank tmp (cells v i).reverse ∧
      ∀ p, i < p → insertAt rank tmp i v p = v p := by
  induction i generalizing v with
  | zero =>
    have hPass : insertAt rank tmp 0 v = Function.update v 0 tmp := rfl
    rw [hPass, reverse_cells_succ, Function.update_self]
    exact ⟨rfl, fun p hp => Function.update_of_ne hp.ne' tmp v⟩
  | succ i ih =>
    rw [reverse_cells_succ, reverse_cells_succ v i, insertDown]
    split
    · rename_i hLess
      have hPass : insertAt rank tmp (i + 1) v =
          insertAt rank tmp i (Function.update v (i + 1) (v i)) := by
        rw [insertAt, shiftUp, if_pos hLess, insertAt]
      obtain ⟨hFront, hBehind⟩ := ih (Function.update v (i + 1) (v i))
      rw [cells_update v (Nat.le_succ i)] at hFront
      rw [hPass, hFront, hBehind (i + 1) (Nat.lt_succ_self i), Function.update_self]
      refine ⟨rfl, fun p hp => ?_⟩
      rw [hBehind p (by omega), Function.update_of_ne (by omega)]
    · rename_i hNot
      have hPass : insertAt rank tmp (i + 1) v = Function.update v (i + 1) tmp := by
        rw [insertAt, shiftUp, if_neg hNot]
      rw [hPass, Function.update_self, cells_update v le_rfl, reverse_cells_succ]
      exact ⟨rfl, fun p hp => Function.update_of_ne (by omega) tmp v⟩

/-- After the passes up to `n` the first cells are sorted and the others are as
they were. -/
theorem passes_spec (n : Nat) (v : Nat → α) :
    (cells ((List.range' 1 n).foldl (fun v i => insertAt rank (v i) i v) v) (n + 1)).reverse =
        insertAll rank (cells v (n + 1)) ∧
      ∀ p, n < p → (List.range' 1 n).foldl (fun v i => insertAt rank (v i) i v) v p = v p := by
  induction n with
  | zero => exact ⟨rfl, fun _ _ => rfl⟩
  | succ n ih =>
    obtain ⟨hSorted, hBehind⟩ := ih
    rw [List.range'_1_concat, List.foldl_append, List.foldl_cons, List.foldl_nil, Nat.add_comm 1 n]
    generalize (List.range' 1 n).foldl (fun v i => insertAt rank (v i) i v) v = sorted at hSorted hBehind
    obtain ⟨hPass, hRest⟩ := insertAt_spec rank (sorted (n + 1)) (n + 1) sorted
    refine ⟨?_, fun p hp => (hRest p hp).trans (hBehind p (by omega))⟩
    rw [hPass, hSorted, hBehind (n + 1) (Nat.lt_succ_self n), cells_succ v (n + 1), insertAll, insertAll,
      List.foldl_append]
    rfl

theorem cells_sort (n : Nat) (v : Nat → α) :
    cells (sort rank n v) n = (insertAll rank (cells v n)).reverse := by
  cases n with
  | zero => rfl
  | succ n => rw [sort, Nat.add_sub_cancel, ← (passes_spec n v).1, List.reverse_reverse]

end HttpMonitoring.Library.InsertionSort
