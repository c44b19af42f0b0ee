import HttpMonitoring.JsonSize
import HttpMonitoring.Library.JsonEscape

/-!
# Strings with control bytes

The loop of the core's `ngx_vslprintf` over the format of the numeric escape,
and which strings come back when the escapes that `json_string` wrote are undone.
-/

namespace HttpMonitoring.JsonStrings

open Library.BoundedWriter Library.JsonText Library.JsonEscape Library.Decimal JsonWriter JsonNames
  JsonSize

variable {w : Nat}

/-- Where the loop is: outside of a conversion, in its width, in its modifiers,
or in the digits behind a point. -/
inductive Place
  | copy
  | width
  | modifiers
  | fraction
deriving DecidableEq

def isDigit (c : UInt8) : Bool := 48 ≤ c && c ≤ 57

def isModifier (c : UInt8) : Bool := c ∈ ascii "umXx*"

/-- What the loop prints when it reads on from the format. A letter without a
conversion is copied, whatever it is. -/
def formatLoop (convert : Bytes → UInt8 → Option Bytes) : Place → Bytes → Bytes → Bytes
  | _, _, [] => []
  | .copy, _, c :: memory =>
    if c = 0 then []
    else if c = 37 then formatLoop convert .width [] memory
    else c :: formatLoop convert .copy [] memory
  | place, spec, c :: memory =>
    if place = .width ∧ isDigit c then formatLoop convert .width (spec ++ [c]) memory
    else if place ≠ .fraction ∧ isModifier c then
      formatLoop convert .modifiers (spec ++ [c]) memory
    else if place ≠ .fraction ∧ c = 46 then formatLoop convert .fraction (spec ++ [c]) memory
    else if place = .fraction ∧ isDigit c then formatLoop convert .fraction (spec ++ [c]) memory
    else (convert spec c).getD [c] ++ formatLoop convert .copy [] memory

/-- The numeric escape is what the loop prints for its format, with `memory`
behind the terminator. -/
structure Loops (R : Vslprintf w) (convert : UInt8 → Bytes → UInt8 → Option Bytes)
    (memory : Bytes) : Prop where
  numeric : ∀ c, R.format [.lit "\\u", .x4 c] =
    formatLoop (convert c) .copy [] (ascii "\\u%04x" ++ 0 :: memory)
  terminator : ∀ c spec, convert c spec 0 = none

/-- The hexadecimal modifier has no conversion behind it: the terminator of the
format is copied, and the loop goes on behind it. -/
theorem Loops.format_eq {R : Vslprintf w} {convert : UInt8 → Bytes → UInt8 → Option Bytes}
    {memory : Bytes} (hCore : Loops R convert memory) (c : UInt8) :
    R.format [.lit "\\u", .x4 c] =
      92 :: 117 :: 0 :: formatLoop (convert c) .copy [] memory := by
  have hFormat : ascii "\\u%04x" = [92, 117, 37, 48, 52, 120] := by decide
  rw [hCore.numeric, hFormat]
  simp [formatLoop, isDigit, show isModifier 120 = true by decide,
    show isModifier 0 = false by decide, hCore.terminator]

/-- `json_string` appends a quoted body without control bytes, and nothing else,
and undoing its escapes gives back the data. -/
def RoundTrips (R : Vslprintf w) (data : Bytes) (jw : Jw) : Prop :=
  ∃ body, jsonString R data jw = jw.put (quoted body) ∧ (∀ c ∈ body, 32 ≤ c) ∧ IsBody body ∧
    unescape body = some data

/-- The bytes with a two-byte escape. -/
def HasEscape (c : UInt8) : Bool := c ∈ [34, 92, 10, 13, 9]

section Escapes

variable (R : Vslprintf w)

theorem escape_length {c : UInt8} (h : Printable c) :
    (escape R c).length = if HasEscape c then 2 else 1 := by
  unfold Printable at h
  unfold escape
  split_ifs
  all_goals simp_all [HasEscape, ascii]
  grind

theorem escaped_length {data : Bytes} (h : ∀ c ∈ data, Printable c) :
    (escaped R data).length = data.length + data.countP HasEscape := by
  induction data with
  | nil => rfl
  | cons c data ih =>
    have hHead := escape_length R (h c List.mem_cons_self)
    have hTail := ih fun d hd => h d (List.mem_cons_of_mem _ hd)
    rw [escaped, List.flatMap_cons, List.length_append, hHead, ← escaped, hTail,
      List.length_cons, List.countP_cons]
    split <;> omega

theorem unescape_escape {c : UInt8} (h : Printable c) (rest : Bytes) :
    unescape (escape R c ++ rest) = (unescape rest).map (c :: ·) := by
  unfold Printable at h
  unfold escape
  split_ifs with hQuote hNewline hReturn hTab hControl
  · exact unescape_simple (by rcases hQuote with rfl | rfl <;> rfl) rest
  · exact unescape_simple (by rw [hNewline]; rfl) rest
  · exact unescape_simple (by rw [hReturn]; rfl) rest
  · exact unescape_simple (by rw [hTab]; rfl) rest
  · grind
  · exact unescape_plain (by grind) rest

theorem unescape_escaped {data : Bytes} (h : ∀ c ∈ data, Printable c) :
    unescape (escaped R data) = some data :=
  unescape_flatMap fun c hc rest => unescape_escape R (h c hc) rest

theorem ge_of_mem_body {body : Bytes} (h : IsBody body) : ∀ c ∈ body, 32 ≤ c := by
  have hHex : ∀ c : UInt8, IsHexDigit c → 32 ≤ c := by
    unfold IsHexDigit IsDigit
    grind
  induction h with
  | nil => simp
  | plain hc _ ih => simpa using ⟨hc.1, ih⟩
  | escape hc _ ih =>
    refine List.forall_mem_cons.mpr ⟨by decide, List.forall_mem_cons.mpr ⟨?_, ih⟩⟩
    simp only [List.mem_cons, List.not_mem_nil, or_false] at hc
    rcases hc with rfl | rfl | rfl | rfl | rfl | rfl | rfl | rfl <;> decide
  | unicode hDigits _ ih =>
    obtain ⟨ha, hb, hc, hd⟩ := hDigits
    simp only [List.forall_mem_cons]
    exact ⟨by decide, by decide, hHex _ ha, hHex _ hb, hHex _ hc, hHex _ hd, ih⟩

theorem put_open (s : Bytes) {jw : Jw} (hOpen : jw.failed = false) : (jw.put s).failed = false :=
  hOpen

theorem jsonAppend_put {s : Bytes} {jw : Jw} (hOpen : jw.failed = false)
    (hRoom : s.length ≤ jw.room) : jsonAppend s jw = jw.put s := by
  simp [jsonAppend, hOpen, hRoom]

theorem jsonByte_put {c : UInt8} (h : Printable c) {jw : Jw} (hOpen : jw.failed = false)
    (hRoom : (escape R c).length ≤ jw.room) : jsonByte R c jw = jw.put (escape R c) := by
  unfold Printable at h
  unfold escape at hRoom ⊢
  rw [jsonByte, hOpen, if_neg Bool.false_ne_true]
  split_ifs at hRoom ⊢ with hQuote hLess hNewline hReturn hTab hControl hLess
  all_goals first
    | rfl
    | exact jsonAppend_put hOpen hRoom
    | grind

theorem put_put (s t : Bytes) (jw : Jw) : (jw.put s).put t = jw.put (s ++ t) := by
  simp [Output.put, Nat.sub_sub]

theorem foldl_jsonByte_put {data : Bytes} (h : ∀ c ∈ data, Printable c) {jw : Jw}
    (hOpen : jw.failed = false) (hRoom : (escaped R data).length ≤ jw.room) :
    data.foldl (fun jw c => jsonByte R c jw) jw = jw.put (escaped R data) := by
  induction data generalizing jw with
  | nil => simp [escaped, Output.put]
  | cons c data ih =>
    rw [escaped, List.flatMap_cons, List.length_append, ← escaped] at hRoom
    rw [List.foldl_cons, jsonByte_put R (h c List.mem_cons_self) hOpen (by omega),
      ih (fun d hd => h d (List.mem_cons_of_mem _ hd)) (put_open _ hOpen), put_put, escaped,
      escaped, List.flatMap_cons]
    simp only [Output.put]
    omega

theorem jsonString_put {data : Bytes} (h : ∀ c ∈ data, Printable c) {jw : Jw}
    (hOpen : jw.failed = false) (hRoom : (quoted (escaped R data)).length ≤ jw.room) :
    jsonString R data jw = jw.put (quoted (escaped R data)) := by
  have hQuote : ascii "\"" = [34] := by decide
  simp only [quoted, List.length_cons, List.length_append, List.length_nil] at hRoom
  rw [jsonString, hQuote, jsonAppend_put hOpen (by simp; omega),
    foldl_jsonByte_put R h (put_open _ hOpen), jsonAppend_put, put_put, put_put]
  · simp [quoted]
  · exact hOpen
  · simp only [Output.put, List.length_cons, List.length_nil]
    omega
  · simp only [Output.put, List.length_cons, List.length_nil]
    omega

end Escapes

/-- A control byte without an escape of its own leaves a NUL in the body. -/
theorem zero_mem_escaped {R : Vslprintf w} {convert : UInt8 → Bytes → UInt8 → Option Bytes}
    {memory : Bytes} (hCore : Loops R convert memory) {data : Bytes} {c : UInt8} (hc : c ∈ data)
    (hControl : ¬ Printable c) : 0 ∈ escaped R data := by
  refine List.mem_flatMap.mpr ⟨c, hc, ?_⟩
  unfold Printable at hControl
  unfold escape
  split_ifs
  · grind
  · grind
  · grind
  · grind
  · rw [hCore.format_eq]
    simp
  · grind

theorem body_eq {R : Vslprintf w} {data body : Bytes} {jw : Jw} (hOpen : jw.failed = false)
    (hPut : jsonString R data jw = jw.put (quoted body)) :
    body = escaped R data ∧ (quoted body).length ≤ jw.room := by
  have hWritten : (jsonString R data jw).failed = false := by rw [hPut]; exact hOpen
  have hRenders : Renders False (jsonString R data) (quoted (escaped R data)) := renders_string R data
  obtain ⟨hOut, hRoom⟩ := hRenders.emits jw hWritten
  rw [hPut] at hOut
  have hBody : quoted body = quoted (escaped R data) := List.append_cancel_left hOut
  constructor
  · simpa [quoted] using hBody
  · rw [hBody]
    omega

/-- A string comes back exactly when each of its control bytes is a newline, a
carriage return or a tab; a writer needs two bytes for an escaped byte. -/
theorem jsonString_roundTrips_iff {R : Vslprintf w}
    {convert : UInt8 → Bytes → UInt8 → Option Bytes} {memory : Bytes}
    (hCore : Loops R convert memory) (data : Bytes) {jw : Jw} (hOpen : jw.failed = false) :
    RoundTrips R data jw ↔
      (∀ c ∈ data, Printable c) ∧ data.length + data.countP HasEscape + 2 ≤ jw.room := by
  constructor
  · rintro ⟨body, hPut, hClean, -, -⟩
    obtain ⟨rfl, hRoom⟩ := body_eq hOpen hPut
    have hData : ∀ c ∈ data, Printable c := by
      intro c hc
      by_contra hControl
      exact absurd (hClean 0 (zero_mem_escaped hCore hc hControl)) (by decide)
    refine ⟨hData, ?_⟩
    simp only [quoted, List.length_cons, List.length_append, List.length_nil,
      escaped_length R hData] at hRoom
    omega
  · rintro ⟨hData, hRoom⟩
    have hBody := isBody_escaped R hData
    refine ⟨escaped R data, jsonString_put R hData hOpen ?_, ge_of_mem_body hBody, hBody,
      unescape_escaped R hData⟩
    simp only [quoted, List.length_cons, List.length_append, List.length_nil,
      escaped_length R hData]
    omega

/-- The only conversion the example's format has a letter for. -/
def decimalConversion (c : UInt8) (_ : Bytes) (letter : UInt8) : Option Bytes :=
  if letter = 100 then some (natText c.toNat) else none

theorem loops_decimals : Loops (decimals (w := w)) decimalConversion [0] where
  numeric _ := rfl
  terminator _ _ := rfl

theorem jsonString_roundTrips_tab :
    Loops (decimals (w := 64)) decimalConversion [0] ∧
      RoundTrips (decimals (w := 64)) [97, 9, 34, 195, 169] (.start 9) :=
  ⟨loops_decimals, (jsonString_roundTrips_iff loops_decimals _ rfl).mpr
    ⟨by simp [Printable], by simp [HasEscape, Output.start]⟩⟩

theorem jsonString_loses_control :
    Loops (decimals (w := 64)) decimalConversion [0] ∧ 0 ∉ ([97, 1] : Bytes) ∧
      (jsonString (decimals (w := 64)) [97, 1] (.start 64)).out = [34, 97, 92, 117, 0, 34] ∧
      ¬ RoundTrips (decimals (w := 64)) [97, 1] (.start 64) := by
  refine ⟨loops_decimals, by decide, by decide, ?_⟩
  rintro ⟨body, hPut, hClean, -, -⟩
  obtain ⟨rfl, -⟩ := body_eq rfl hPut
  exact absurd (hClean 0 (by decide)) (by decide)

end HttpMonitoring.JsonStrings
