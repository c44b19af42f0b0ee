import HttpMonitoring.JsonWriter
import HttpMonitoring.Library.ByteMemory

/-!
# The writer in memory

The calls on the writer as stores between two addresses. The core's
`ngx_vslprintf` is a parameter that writes a prefix of what it renders and ends
early only where the room ends. At every moment of a run the memory holds what
the writer of lists has put out.
-/

namespace HttpMonitoring.WriterMemory

open Library.BoundedWriter Library.ByteMemory Library.JsonText JsonWriter

variable {w : Nat}

/-- `ngx_http_monitoring_json_writer_t` with the memory behind its pointers. -/
structure Writer where
  mem : Nat → UInt8
  pos : Nat
  last : Nat
  failed : Bool

/-- `ngx_vslprintf`: from the memory, `buf`, `last` and the format with its
arguments to the end of what was written and the memory. -/
abbrev Printf (w : Nat) := (Nat → UInt8) → Nat → Nat → List (Piece w) → Nat × (Nat → UInt8)

namespace Writer

def start (mem : Nat → UInt8) (buf size : Nat) : Writer := ⟨mem, buf, buf + size, false⟩

/-- The difference of the pointers. -/
def room (jw : Writer) : Int := jw.last - jw.pos

def fail (jw : Writer) : Writer := { jw with failed := true }

def put (s : Bytes) (jw : Writer) : Writer :=
  { jw with mem := store jw.mem jw.pos s, pos := jw.pos + s.length }

/-- `json_append` of the string in front of a terminator. The room is compared
as a `size_t`, so that a negative one would suffice for everything. -/
def append (s : Bytes) (jw : Writer) : Writer :=
  if jw.failed then jw else if 0 ≤ jw.room ∧ jw.room < s.length then jw.fail else jw.put s

/-- `json_printf`. -/
def printf (vslprintf : Printf w) (pieces : List (Piece w)) (jw : Writer) : Writer :=
  if jw.failed then jw
  else if jw.room ≤ 1 then jw.fail
  else
    let (p, mem) := vslprintf jw.mem jw.pos jw.last pieces
    if jw.last ≤ p then { jw with mem := mem, failed := true } else { jw with mem := mem, pos := p }

/-- The body of the loop of `json_string`. -/
def byte (vslprintf : Printf w) (c : UInt8) (jw : Writer) : Writer :=
  if jw.failed then jw
  else if c = 34 ∨ c = 92 then (if jw.room < 2 then jw.fail else jw.put [92, c])
  else if c = 10 then jw.append (ascii "\\n")
  else if c = 13 then jw.append (ascii "\\r")
  else if c = 9 then jw.append (ascii "\\t")
  else if c < 32 then jw.printf vslprintf [.lit "\\u", .x4 c]
  else if jw.room < 1 then jw.fail
  else jw.put [c]

/-- `json_string`. -/
def string (vslprintf : Printf w) (data : Bytes) (jw : Writer) : Writer :=
  append (ascii "\"") (data.foldl (fun jw c => byte vslprintf c jw) (append (ascii "\"") jw))

end Writer

inductive Call (w : Nat)
  | append (s : Bytes)
  | printf (pieces : List (Piece w))
  | string (data : Bytes)

namespace Call

def run (vslprintf : Printf w) : Call w → Writer → Writer
  | append s => Writer.append s
  | printf pieces => Writer.printf vslprintf pieces
  | string data => Writer.string vslprintf data

def runAll (vslprintf : Printf w) (calls : List (Call w)) (jw : Writer) : Writer :=
  calls.foldl (fun jw c => c.run vslprintf jw) jw

/-- What the call is meant to write. -/
def rendering (R : Vslprintf w) : Call w → Bytes
  | append s => s
  | printf pieces => R.format pieces
  | string data => quoted (escaped R data)

end Call

/-- Never at or past `last`, and short of the whole rendering only when it
reaches `last`. -/
structure WritesPrefix (R : Vslprintf w) (vslprintf : Printf w) : Prop where
  writes : ∀ mem buf last pieces, buf ≤ last → ∃ k ≤ (R.format pieces).length, buf + k ≤ last ∧
    vslprintf mem buf last pieces = (buf + k, store mem buf ((R.format pieces).take k)) ∧
    (k < (R.format pieces).length → buf + k = last)

/-- A call of `json_append` or `json_printf`, or one byte in the loop of
`json_string`. -/
inductive Moment (w : Nat)
  | append (s : Bytes)
  | printf (pieces : List (Piece w))
  | byte (c : UInt8)

namespace Moment

def run (vslprintf : Printf w) : Moment w → Writer → Writer
  | append s => Writer.append s
  | printf pieces => Writer.printf vslprintf pieces
  | byte c => Writer.byte vslprintf c

def runAll (vslprintf : Printf w) (moments : List (Moment w)) (jw : Writer) : Writer :=
  moments.foldl (fun jw m => m.run vslprintf jw) jw

/-- The same on the writer of lists. -/
def onList (R : Vslprintf w) : Moment w → Jw → Jw
  | append s => jsonAppend s
  | printf pieces => jsonPrintf R pieces
  | byte c => jsonByte R c

def rendering (R : Vslprintf w) : Moment w → Bytes
  | append s => s
  | printf pieces => R.format pieces
  | byte c => escape R c

end Moment

def Call.moments : Call w → List (Moment w)
  | .append s => [.append s]
  | .printf pieces => [.printf pieces]
  | .string data => .append (ascii "\"") :: (data.map .byte ++ [.append (ascii "\"")])

theorem Call.run_eq (vslprintf : Printf w) (c : Call w) (jw : Writer) :
    c.run vslprintf jw = Moment.runAll vslprintf c.moments jw := by
  cases c with
  | append s => rfl
  | printf pieces => rfl
  | string data =>
    rw [Call.run, Writer.string, Call.moments, Moment.runAll, List.foldl_cons, List.foldl_append,
      List.foldl_map]
    rfl

theorem Call.runAll_eq (vslprintf : Printf w) (calls : List (Call w)) (jw : Writer) :
    Call.runAll vslprintf calls jw = Moment.runAll vslprintf (calls.flatMap Call.moments) jw := by
  induction calls generalizing jw with
  | nil => rfl
  | cons c calls ih =>
    rw [Call.runAll, List.foldl_cons, ← Call.runAll, ih, Call.run_eq, List.flatMap_cons, Moment.runAll,
      Moment.runAll, Moment.runAll, List.foldl_append]

theorem rendering_moments (R : Vslprintf w) (calls : List (Call w)) :
    (calls.flatMap Call.moments).flatMap (Moment.rendering R) = calls.flatMap (Call.rendering R) := by
  have hQuote : ascii "\"" = [34] := by decide
  rw [List.flatMap_assoc]
  congr 1
  funext c
  cases c with
  | append s => exact List.append_nil s
  | printf pieces => exact List.append_nil _
  | string data => simp [Call.moments, Call.rendering, Moment.rendering, quoted, escaped, hQuote,
      List.flatMap_map]

variable {R : Vslprintf w} {vslprintf : Printf w}

theorem renders_moments (R : Vslprintf w) (moments : List (Moment w)) :
    Renders True (fun jw => moments.foldl (fun jw m => m.onList R jw) jw)
      (moments.flatMap (Moment.rendering R)) := by
  refine .foldl moments fun m _ => ?_
  cases m with
  | append s => exact renders_append s
  | printf pieces => exact renders_printf R pieces
  | byte c => exact renders_byte R c

/-- The memory outside of the buffer is as it was, and in front of `pos` it
holds what was put out. -/
structure Abstracts (mem : Nat → UInt8) (buf size : Nat) (m : Writer) (jw : Jw) : Prop where
  out : load m.mem buf jw.out.length = jw.out
  pos : m.pos = buf + jw.out.length
  room : m.pos + jw.room = buf + size
  last : m.last = buf + size
  failed : m.failed = jw.failed
  frame : ∀ a, a < buf ∨ buf + size ≤ a → m.mem a = mem a

namespace Abstracts

variable {mem : Nat → UInt8} {buf size : Nat} {m : Writer} {jw : Jw}

theorem start (mem : Nat → UInt8) (buf size : Nat) :
    Abstracts mem buf size (Writer.start mem buf size) (Output.start size) :=
  ⟨rfl, rfl, rfl, rfl, rfl, fun _ _ => rfl⟩

variable (h : Abstracts mem buf size m jw)
include h

theorem room_eq : m.room = jw.room := by
  have hRoom := h.room
  have hLast := h.last
  rw [Writer.room]
  omega

theorem fail : Abstracts mem buf size m.fail jw.fail :=
  ⟨h.out, h.pos, h.room, h.last, rfl, h.frame⟩

/-- Stores behind `pos` that are not counted. -/
theorem scribble {mem' : Nat → UInt8} (hFrame : ∀ a, a < m.pos ∨ buf + size ≤ a → mem' a = m.mem a) :
    Abstracts mem buf size { m with mem := mem' } jw := by
  have hPos := h.pos
  have hRoom := h.room
  refine ⟨?_, h.pos, h.room, h.last, h.failed, fun a ha => ?_⟩
  · rw [load_congr fun a _ ha => hFrame a (Or.inl (hPos ▸ ha)), h.out]
  · exact (hFrame a (by omega)).trans (h.frame a ha)

theorem put {s : Bytes} (hFits : s.length ≤ jw.room) : Abstracts mem buf size (m.put s) (jw.put s) := by
  have hPos := h.pos
  have hRoom := h.room
  refine ⟨?_, ?_, ?_, h.last, h.failed, fun a ha => ?_⟩
  · show load (store m.mem m.pos s) buf (jw.out ++ s).length = jw.out ++ s
    have hEarlier : load (store m.mem m.pos s) buf jw.out.length = jw.out := by
      rw [load_congr fun a _ ha => store_frame m.mem m.pos s (Or.inl (hPos ▸ ha)), h.out]
    rw [List.length_append, load_add, hEarlier, ← hPos, load_store]
  · show m.pos + s.length = buf + (jw.out ++ s).length
    rw [List.length_append, hPos, Nat.add_assoc]
  · show m.pos + s.length + (jw.room - s.length) = buf + size
    omega
  · show store m.mem m.pos s a = mem a
    rw [store_frame m.mem m.pos s (by omega), h.frame a ha]

theorem append (s : Bytes) : Abstracts mem buf size (m.append s) (jsonAppend s jw) := by
  have hRoom := h.room_eq
  rw [Writer.append, jsonAppend, h.failed]
  split
  · exact h
  · split
    · rw [if_neg (by omega)]
      exact h.fail
    · rw [if_pos (by omega)]
      exact h.put (by omega)

/-- The rendering is whole exactly if its end is in front of `last`. -/
theorem printf (hCore : WritesPrefix R vslprintf) (pieces : List (Piece w)) :
    Abstracts mem buf size (m.printf vslprintf pieces) (jsonPrintf R pieces jw) := by
  have hRoom := h.room_eq
  have hSpace := h.room
  have hLast := h.last
  rw [Writer.printf, jsonPrintf, h.failed]
  split
  · exact h
  · split
    · rw [if_pos (by omega)]
      exact h.fail
    · rw [if_neg (by omega)]
      obtain ⟨k, hLength, hInside, hWrites, hEarly⟩ :=
        hCore.writes m.mem m.pos m.last pieces (by omega)
      have hTaken : ((R.format pieces).take k).length = k := List.length_take_of_le hLength
      rw [hWrites]
      dsimp only
      split
      · rename_i hFull
        rw [if_pos (by omega)]
        refine (h.scribble fun a ha => ?_).fail
        exact store_frame m.mem m.pos ((R.format pieces).take k) (by omega)
      · rename_i hOpen
        have hWhole : k = (R.format pieces).length := by
          by_contra hShort
          exact hOpen (hEarly (lt_of_le_of_ne hLength hShort)).ge
        rw [if_neg (by omega), hWhole, List.take_length, ← h.failed]
        exact h.put (s := R.format pieces) (by omega)

theorem byte (hCore : WritesPrefix R vslprintf) (c : UInt8) :
    Abstracts mem buf size (m.byte vslprintf c) (jsonByte R c jw) := by
  have hRoom := h.room_eq
  rw [Writer.byte, jsonByte, h.failed]
  split_ifs
  · exact h
  · exact h.fail
  · omega
  · omega
  · exact h.put (by simp only [List.length_cons, List.length_nil]; omega)
  · exact h.append _
  · exact h.append _
  · exact h.append _
  · exact h.printf hCore _
  · exact h.fail
  · omega
  · omega
  · exact h.put (by simp only [List.length_cons, List.length_nil]; omega)

theorem moments (hCore : WritesPrefix R vslprintf) (moments : List (Moment w)) :
    Abstracts mem buf size (Moment.runAll vslprintf moments m)
      (moments.foldl (fun jw m => m.onList R jw) jw) := by
  induction moments generalizing m jw with
  | nil => exact h
  | cons moment moments ih =>
    refine ih (m := moment.run vslprintf m) ?_
    cases moment with
    | append s => exact h.append s
    | printf pieces => exact h.printf hCore pieces
    | byte c => exact h.byte hCore c

end Abstracts

/-- The writer after the first `n` moments of the calls. -/
def after (vslprintf : Printf w) (mem : Nat → UInt8) (buf size : Nat) (calls : List (Call w)) (n : Nat) :
    Writer :=
  Moment.runAll vslprintf ((calls.flatMap Call.moments).take n) (Writer.start mem buf size)

def written (vslprintf : Printf w) (mem : Nat → UInt8) (buf size : Nat) (calls : List (Call w)) : Writer :=
  Call.runAll vslprintf calls (Writer.start mem buf size)

/-- At no moment `pos` is past `last` or a byte outside of the buffer changed, a
failure stays, and without one everything was written. -/
structure AllOrNothing (R : Vslprintf w) (vslprintf : Printf w) (mem : Nat → UInt8) (buf size : Nat)
    (calls : List (Call w)) : Prop where
  bounded : ∀ n, (after vslprintf mem buf size calls n).pos ≤ (after vslprintf mem buf size calls n).last
  last : ∀ n, (after vslprintf mem buf size calls n).last = buf + size
  confined : ∀ n a, a < buf ∨ buf + size ≤ a → (after vslprintf mem buf size calls n).mem a = mem a
  sticky : ∀ n n', n ≤ n' → (after vslprintf mem buf size calls n).failed = true →
    (after vslprintf mem buf size calls n').failed = true
  whole : (written vslprintf mem buf size calls).failed = false →
    load (written vslprintf mem buf size calls).mem buf
      ((written vslprintf mem buf size calls).pos - buf) = calls.flatMap (Call.rendering R)

theorem abstracts_after (hCore : WritesPrefix R vslprintf) (mem : Nat → UInt8) (buf size : Nat)
    (calls : List (Call w)) (n : Nat) : Abstracts mem buf size (after vslprintf mem buf size calls n)
      (((calls.flatMap Call.moments).take n).foldl (fun jw m => m.onList R jw) (Output.start size)) :=
  (Abstracts.start mem buf size).moments hCore _

theorem abstracts_written (hCore : WritesPrefix R vslprintf) (mem : Nat → UInt8) (buf size : Nat)
    (calls : List (Call w)) : Abstracts mem buf size (written vslprintf mem buf size calls)
      ((calls.flatMap Call.moments).foldl (fun jw m => m.onList R jw) (Output.start size)) := by
  rw [written, Call.runAll_eq]
  exact (Abstracts.start mem buf size).moments hCore _

theorem allOrNothing (hCore : WritesPrefix R vslprintf) (mem : Nat → UInt8) (buf size : Nat)
    (calls : List (Call w)) : AllOrNothing R vslprintf mem buf size calls := by
  have hAfter := abstracts_after hCore mem buf size calls
  refine ⟨fun n => ?_, fun n => (hAfter n).last, fun n => (hAfter n).frame, fun n n' hn hFailed => ?_, ?_⟩
  · have hRoom := (hAfter n).room
    rw [(hAfter n).last]
    omega
  · obtain ⟨d, rfl⟩ := Nat.exists_eq_add_of_le hn
    rw [(hAfter n).failed] at hFailed
    rw [(hAfter (n + d)).failed, List.take_add, List.foldl_append]
    exact (renders_moments R _).sticky _ hFailed
  · intro hWritten
    have hLast := abstracts_written hCore mem buf size calls
    rw [hLast.failed] at hWritten
    have hOut := (renders_moments R _).out_start hWritten
    rw [rendering_moments] at hOut
    rw [hLast.pos, Nat.add_sub_cancel_left, hLast.out, hOut]

end HttpMonitoring.WriterMemory
