import HttpMonitoring.Layout
import HttpMonitoring.Library.BoundedWriter
import HttpMonitoring.Library.JsonText

/-!
# The writer of the JSON documents

`json_append`, `json_printf` and `json_string`, and the loops that put commas
between what they emit. How the core's `ngx_vslprintf` prints a number is a
parameter.
-/

namespace HttpMonitoring.JsonWriter

open Library.BoundedWriter Library.JsonText

variable {w : Nat}

/-- The pieces of a format with their arguments, under the letters of the core. -/
inductive Piece (w : Nat)
  | lit (s : String)
  | uA (x : BitVec w)
  | ui (x : BitVec w)
  | M (ms : BitVec w)
  | d (n : Int)
  | T (sec : Int)
  | P (pid : Int)
  | O (n : Int)
  | f (digits : Nat) (x : ℚ)
  | s (text : Bytes)
  | x4 (c : UInt8)

/-- The texts `ngx_vslprintf` prints for the conversions. -/
structure Vslprintf (w : Nat) where
  unsigned : BitVec w → Bytes
  msec : BitVec w → Bytes
  signed : Int → Bytes
  fixed : Nat → ℚ → Bytes
  hex4 : UInt8 → Bytes

namespace Vslprintf

variable (R : Vslprintf w)

@[simp] def piece : Piece w → Bytes
  | .lit s => ascii s
  | .uA x => R.unsigned x
  | .ui x => R.unsigned x
  | .M ms => R.msec ms
  | .d n => R.signed n
  | .T sec => R.signed sec
  | .P pid => R.signed pid
  | .O n => R.signed n
  | .f digits x => R.fixed digits x
  | .s text => text
  | .x4 c => R.hex4 c

def format (pieces : List (Piece w)) : Bytes := pieces.flatMap R.piece

/-- Every conversion of a number prints a JSON number. -/
structure Numeric : Prop where
  unsigned : ∀ x, IsNumber (R.unsigned x)
  msec : ∀ x, IsNumber (R.msec x)
  signed : ∀ n, IsNumber (R.signed n)
  fixed : ∀ digits x, IsNumber (R.fixed digits x)

end Vslprintf

abbrev Jw := Output UInt8

def jsonAppend (s : Bytes) (jw : Jw) : Jw :=
  if jw.failed then jw else if s.length ≤ jw.room then jw.put s else jw.fail

def jsonPrintf (R : Vslprintf w) (pieces : List (Piece w)) (jw : Jw) : Jw :=
  if jw.failed then jw
  else if jw.room ≤ 1 then jw.fail
  else if jw.room ≤ (R.format pieces).length then jw.fail
  else jw.put (R.format pieces)

section Strings

variable (R : Vslprintf w)

/-- The body of the loop of `json_string`. -/
def jsonByte (c : UInt8) (jw : Jw) : Jw :=
  if jw.failed then jw
  else if c = 34 ∨ c = 92 then (if jw.room < 2 then jw.fail else jw.put [92, c])
  else if c = 10 then jsonAppend (ascii "\\n") jw
  else if c = 13 then jsonAppend (ascii "\\r") jw
  else if c = 9 then jsonAppend (ascii "\\t") jw
  else if c < 32 then jsonPrintf R [.lit "\\u", .x4 c] jw
  else if jw.room < 1 then jw.fail
  else jw.put [c]

def jsonString (data : Bytes) (jw : Jw) : Jw :=
  jsonAppend (ascii "\"") (data.foldl (fun jw c => jsonByte R c jw) (jsonAppend (ascii "\"") jw))

def escape (c : UInt8) : Bytes :=
  if c = 34 ∨ c = 92 then [92, c]
  else if c = 10 then ascii "\\n"
  else if c = 13 then ascii "\\r"
  else if c = 9 then ascii "\\t"
  else if c < 32 then R.format [.lit "\\u", .x4 c]
  else [c]

def escaped (data : Bytes) : Bytes := data.flatMap (escape R)

end Strings

/-- The loops that write a comma before every element but the one with index 0. -/
def forEach (n : Nat) (body : Nat → Jw → Jw) (jw : Jw) : Jw :=
  (List.range n).foldl (fun jw i => body i (if i = 0 then jw else jsonAppend (ascii ",") jw)) jw

/-- The loops that skip slots and count what they emitted. -/
def forOccupied (n : Nat) (occupied : Nat → Bool) (body : Nat → Jw → Jw)
    (jw : Jw) : Jw :=
  ((List.range n).foldl (fun (p : Jw × Nat) i =>
    if occupied i then (body i (if p.2 = 0 then p.1 else jsonAppend (ascii ",") p.1), p.2 + 1)
    else p) (jw, 0)).1

variable {ok : Prop} (R : Vslprintf w)

@[simp] theorem format_nil : R.format [] = [] := rfl

@[simp] theorem format_cons (p : Piece w) (pieces : List (Piece w)) :
    R.format (p :: pieces) = R.piece p ++ R.format pieces := rfl

theorem renders_append (s : Bytes) : Renders ok (jsonAppend s) s := by
  refine .of_cases (fun jw h => by simp [jsonAppend, h]) (fun jw h => ?_) (fun jw h hSpare => ?_)
  · rcases Nat.lt_or_ge jw.room s.length with hLess | hRoom
    · exact Or.inl (by simp [jsonAppend, h, hLess])
    · exact Or.inr ⟨by simp [jsonAppend, h, hRoom], hRoom⟩
  · simp [jsonAppend, h, show s.length ≤ jw.room by omega]

theorem renders_printf (pieces : List (Piece w)) :
    Renders ok (jsonPrintf R pieces) (R.format pieces) := by
  refine .of_cases (fun jw h => by simp [jsonPrintf, h]) (fun jw h => ?_) (fun jw h hSpare => ?_)
  · simp only [jsonPrintf, h, Bool.false_eq_true, if_false]
    split
    · exact Or.inl rfl
    · split
      · exact Or.inl rfl
      · exact Or.inr ⟨rfl, by omega⟩
  · simp only [jsonPrintf, h, Bool.false_eq_true, if_false]
    rw [if_neg (by omega), if_neg (by omega)]

theorem renders_byte (c : UInt8) : Renders ok (jsonByte R c) (escape R c) := by
  unfold jsonByte escape
  split_ifs
  · exact .put [92, c]
  · exact (renders_append _).unlessFailed
  · exact (renders_append _).unlessFailed
  · exact (renders_append _).unlessFailed
  · exact (renders_printf R _).unlessFailed
  · exact .put [c]

theorem renders_string (data : Bytes) :
    Renders ok (jsonString R data) (quoted (escaped R data)) :=
  (((renders_append _).comp (.foldl data fun c _ => renders_byte R c)).comp (renders_append _)).cast
    (by simp [quoted, ascii, escaped])

theorem renders_commaFirst {body : Jw → Jw} {text : Bytes} (h : Renders ok body text) :
    Renders ok (fun jw => body (jsonAppend (ascii ",") jw)) (comma :: text) :=
  ((renders_append _).comp h).cast rfl

theorem renders_forEach {n : Nat} {body : Nat → Jw → Jw} {text : Nat → Bytes}
    (h : ∀ i < n, Renders ok (body i) (text i)) :
    Renders ok (forEach n body) (commaSep ((List.range n).map text)) := by
  cases n with
  | zero => exact .skip
  | succ n =>
    rw [List.range_succ_eq_map, List.map_cons, commaSep_cons]
    have hRest : Renders ok (fun jw => (List.range n).foldl
        (fun jw i => body (i + 1) (jsonAppend (ascii ",") jw)) jw)
        ((List.range n).flatMap fun i => comma :: text (i + 1)) :=
      .foldl _ fun i hi => renders_commaFirst (h (i + 1) (by simpa using hi))
    refine (((h 0 (Nat.succ_pos n)).comp hRest).cast ?_).congr fun jw => ?_
    · simp [List.flatMap_map]
    · simp [forEach, List.range_succ_eq_map, List.foldl_map]

theorem renders_emitted {occupied : Nat → Bool} {body : Nat → Jw → Jw} {text : Nat → Bytes}
    {slots : List Nat} (h : ∀ i ∈ slots, occupied i → Renders ok (body i) (text i)) (k : Nat) :
    Renders ok (fun jw => (slots.foldl (fun (p : Jw × Nat) i =>
        if occupied i then (body i (if p.2 = 0 then p.1 else jsonAppend (ascii ",") p.1), p.2 + 1)
        else p) (jw, k + 1)).1)
      ((slots.filter occupied).flatMap fun i => comma :: text i) := by
  induction slots generalizing k with
  | nil => exact .skip
  | cons i slots ih =>
    have hTail := ih fun j hj => h j (List.mem_cons_of_mem _ hj)
    cases hi : occupied i with
    | false => simpa [hi] using hTail k
    | true =>
      have hHead := renders_commaFirst (h i List.mem_cons_self hi)
      simpa [hi] using hHead.comp (hTail (k + 1))

theorem renders_forOccupied {n : Nat} {occupied : Nat → Bool} {body : Nat → Jw → Jw}
    {text : Nat → Bytes} (h : ∀ i < n, occupied i → Renders ok (body i) (text i)) :
    Renders ok (forOccupied n occupied body)
      (commaSep (((List.range n).filter occupied).map text)) := by
  have hSlots : ∀ i ∈ List.range n, occupied i → Renders ok (body i) (text i) :=
    fun i hi => h i (List.mem_range.mp hi)
  unfold forOccupied
  generalize List.range n = slots at hSlots
  induction slots with
  | nil => exact .skip
  | cons i slots ih =>
    cases hi : occupied i with
    | false => simpa [hi] using ih fun j hj => hSlots j (List.mem_cons_of_mem _ hj)
    | true =>
      have hTail := renders_emitted (fun j hj => hSlots j (List.mem_cons_of_mem _ hj)) 0
      have hHead := hSlots i List.mem_cons_self hi
      simpa [hi, commaSep_cons, List.flatMap_map] using hHead.comp hTail

end HttpMonitoring.JsonWriter
