import Mathlib

/-!
# Cells with addresses

Storing a list of bytes from an address on, and loading so many cells.
-/

namespace HttpMonitoring.Library.ByteMemory

variable {α : Type*}

def store (mem : Nat → α) : Nat → List α → Nat → α
  | _, [] => mem
  | pos, c :: s => store (Function.update mem pos c) (pos + 1) s

def load (mem : Nat → α) (pos n : Nat) : List α := (List.range n).map fun i => mem (pos + i)

@[simp] theorem length_load (mem : Nat → α) (pos n : Nat) : (load mem pos n).length = n := by
  rw [load, List.length_map, List.length_range]

theorem load_succ (mem : Nat → α) (pos n : Nat) :
    load mem pos (n + 1) = mem pos :: load mem (pos + 1) n := by
  rw [load, List.range_succ_eq_map, List.map_cons, List.map_map, Nat.add_zero, load]
  refine congrArg (mem pos :: ·) (List.map_congr_left fun i _ => ?_)
  exact congrArg mem (by rw [Nat.succ_eq_add_one]; omega)

theorem load_add (mem : Nat → α) (pos n m : Nat) :
    load mem pos (n + m) = load mem pos n ++ load mem (pos + n) m := by
  induction n generalizing pos with
  | zero => rw [Nat.zero_add, Nat.add_zero, load, load, List.range_zero, List.map_nil, List.nil_append]
  | succ n ih =>
    rw [Nat.succ_add, load_succ, ih, load_succ, List.cons_append, Nat.add_assoc pos 1 n, Nat.add_comm 1 n]

theorem load_congr {mem mem' : Nat → α} {pos n : Nat} (h : ∀ a, pos ≤ a → a < pos + n → mem' a = mem a) :
    load mem' pos n = load mem pos n :=
  List.map_congr_left fun i hi => h (pos + i) (Nat.le_add_right pos i)
    (Nat.add_lt_add_left (List.mem_range.mp hi) pos)

/-- A store leaves the cells in front of it and behind it. -/
theorem store_frame (mem : Nat → α) (pos : Nat) (s : List α) {a : Nat} (h : a < pos ∨ pos + s.length ≤ a) :
    store mem pos s a = mem a := by
  induction s generalizing mem pos with
  | nil => rfl
  | cons c s ih =>
    rw [List.length_cons] at h
    rw [store, ih _ _ (by omega), Function.update_of_ne (by omega)]

theorem load_store (mem : Nat → α) (pos : Nat) (s : List α) : load (store mem pos s) pos s.length = s := by
  induction s generalizing mem pos with
  | nil => rfl
  | cons c s ih =>
    rw [List.length_cons, load_succ, store, ih, store_frame _ _ _ (Or.inl (Nat.lt_succ_self pos)),
      Function.update_self]

end HttpMonitoring.Library.ByteMemory
