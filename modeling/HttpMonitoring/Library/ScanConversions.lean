import HttpMonitoring.Library.Scanf

/-!
# More conversions of `sscanf`

What a format leaves of a text, hexadecimal numbers, and numbers with a
decimal point.
-/

namespace HttpMonitoring.Library.Scanf

open JsonText Decimal

/-- What the directives leave of a text that matches them all. -/
def after : List Directive → Text → Option Text
  | [], s => some s
  | .white :: format, s => after format (skipSpace s)
  | .literal _ :: _, [] => none
  | .literal byte :: format, c :: s => if c = byte then after format s else none
  | .unsigned _ :: format, s => (numberPrefix s).bind fun p => after format p.2
  | .word width _ :: format, s => (wordPrefix width s).bind fun p => after format p.2

def isHexDigit (c : UInt8) : Bool := isDigit c || (65 ≤ c && c ≤ 70) || (97 ≤ c && c ≤ 102)

def hexDigitValue (c : UInt8) : Nat :=
  if isDigit c then c.toNat - 48 else if c ≤ 70 then c.toNat - 55 else c.toNat - 87

def hexDigitsValue (s : Text) : Nat := s.foldl (fun n c => 16 * n + hexDigitValue c) 0

/-- Behind `0x` there may be no digit. -/
def hexDigitsPrefix (negative : Bool) (s : Text) : Option (Nat × Text) :=
  let marked := s.head? = some 48 ∧ (s[1]? = some 120 ∨ s[1]? = some 88)
  let digits := if marked then s.drop 2 else s
  if ¬ marked ∧ digits.takeWhile isHexDigit = [] then none
  else some (wordValue negative (hexDigitsValue (digits.takeWhile isHexDigit)), digits.dropWhile isHexDigit)

/-- `%x` -/
def hexPrefix (s : Text) : Option (Nat × Text) :=
  match skipSpace s with
  | [] => none
  | c :: rest =>
    if c = 45 then hexDigitsPrefix true rest
    else if c = 43 then hexDigitsPrefix false rest
    else hexDigitsPrefix false (c :: rest)

def hexChar (d : Nat) : UInt8 := if d < 10 then UInt8.ofNat (48 + d) else UInt8.ofNat (55 + d)

/-- `%02X` of a byte. -/
def hexByte (n : Nat) : Text := [hexChar (n / 16), hexChar (n % 16)]

/-- Digits, and more digits behind a point; one of them at least. -/
def pointPrefix (s : Text) : Option (ℚ × Text) :=
  let whole := s.takeWhile isDigit
  let behind := s.dropWhile isDigit
  let decimals := if behind.head? = some 46 then behind.tail.takeWhile isDigit else []
  let rest := if behind.head? = some 46 then behind.tail.dropWhile isDigit else behind
  if whole ++ decimals = [] then none
  else some (digitsValue (whole ++ decimals) / 10 ^ decimals.length, rest)

/-- The number that `%lf` reads, before it is rounded. -/
def realPrefix (s : Text) : Option (ℚ × Text) :=
  match skipSpace s with
  | [] => none
  | c :: rest =>
    if c = 45 then (pointPrefix rest).map fun p => (-p.1, p.2)
    else if c = 43 then pointPrefix rest
    else pointPrefix (c :: rest)

/-- `%lf` for a number of times: what is read before a conversion fails. -/
def reals : Nat → Text → List ℚ
  | 0, _ => []
  | n + 1, s =>
    match realPrefix s with
    | none => []
    | some (x, rest) => x :: reals n rest

/-- Hundredths with two decimals. -/
def hundredths (n : Nat) : Text := natText (n / 100) ++ 46 :: paddedText 2 n

theorem after_white {blanks s : Text} (hBlanks : ∀ c ∈ blanks, isSpace c = true)
    (hs : ∀ c ∈ s.head?, isSpace c = false) (format : List Directive) :
    after (.white :: format) (blanks ++ s) = after format s := by
  rw [after, skipSpace_blanks hBlanks hs]

theorem after_number {n : Nat} (hn : n < 2 ^ 64) {rest : Text} (hRest : ∀ c ∈ rest.head?, isDigit c = false)
    (assign : Bool) (format : List Directive) :
    after (.unsigned assign :: format) (natText n ++ rest) = after format rest := by
  have hPrefix : numberPrefix ([] ++ natText n ++ rest) = some (n, rest) :=
    numberPrefix_natText (List.forall_mem_nil _) hn hRest
  rw [List.nil_append] at hPrefix
  rw [after, hPrefix, Option.bind_some]

theorem wordPrefix_append {word rest : Text} {width : Nat} (hWord : word ≠ [])
    (hPlain : ∀ c ∈ word, isSpace c = false) (hWidth : word.length ≤ width)
    (hRest : ∀ c ∈ rest.head?, isSpace c = true) : wordPrefix width (word ++ rest) = some (word, rest) := by
  have hHead : ∀ c ∈ (word ++ rest).head?, isSpace c = false := by
    intro c hc
    rw [List.head?_append_of_ne_nil _ hWord] at hc
    exact hPlain c (List.mem_of_mem_head? hc)
  have hSkip : skipSpace ([] ++ (word ++ rest)) = word ++ rest := skipSpace_blanks (List.forall_mem_nil _) hHead
  have hTake : (word ++ rest).takeWhile (fun c => !isSpace c) = word := by
    rw [List.takeWhile_append_of_pos fun c hc => by rw [hPlain c hc]; rfl]
    cases rest with
    | nil => simp
    | cons c rest => simp [hRest c rfl]
  rw [List.nil_append] at hSkip
  rw [wordPrefix, hSkip, hTake, List.take_of_length_le hWidth, if_neg hWord, List.drop_left]

theorem after_word {word rest : Text} {width : Nat} (hWord : word ≠ []) (hPlain : ∀ c ∈ word, isSpace c = false)
    (hWidth : word.length ≤ width) (hRest : ∀ c ∈ rest.head?, isSpace c = true) (assign : Bool)
    (format : List Directive) : after (.word width assign :: format) (word ++ rest) = after format rest := by
  rw [after, wordPrefix_append hWord hPlain hWidth hRest, Option.bind_some]

theorem hexChar_reads {d : Nat} (hd : d < 16) :
    isHexDigit (hexChar d) = true ∧ hexDigitValue (hexChar d) = d ∧ isSpace (hexChar d) = false ∧
      hexChar d ∉ [45, 43, 120, 88] := by
  interval_cases d <;> decide

theorem hexPrefix_hexByte {n : Nat} (hn : n < 256) {rest : Text} (hRest : ∀ c ∈ rest.head?, isHexDigit c = false) :
    hexPrefix (hexByte n ++ rest) = some (n, rest) := by
  obtain ⟨hHigh, hHighValue, hSpace, hOther⟩ := hexChar_reads (Nat.div_lt_of_lt_mul hn : n / 16 < 16)
  obtain ⟨hLow, hLowValue, -, hNoMark⟩ := hexChar_reads (Nat.mod_lt n (by decide) : n % 16 < 16)
  simp only [List.mem_cons, List.not_mem_nil, or_false, not_or] at hOther hNoMark
  have hSkip : skipSpace (hexByte n ++ rest) = hexByte n ++ rest := by
    rw [skipSpace, hexByte, List.cons_append, List.dropWhile_cons_of_neg (by rw [hSpace]; decide)]
  have hTake : (hexByte n ++ rest).takeWhile isHexDigit = hexByte n := by
    rw [List.takeWhile_append_of_pos (by simp [hexByte, hHigh, hLow])]
    cases rest with
    | nil => simp
    | cons c rest => simp [hRest c rfl]
  have hDrop : (hexByte n ++ rest).dropWhile isHexDigit = rest := by
    rw [List.dropWhile_append_of_pos (by simp [hexByte, hHigh, hLow])]
    cases rest with
    | nil => rfl
    | cons c rest => simp [hRest c rfl]
  have hValue : hexDigitsValue (hexByte n) = n := by
    rw [hexDigitsValue, hexByte, List.foldl_cons, List.foldl_cons, List.foldl_nil, hHighValue, hLowValue]
    omega
  have hUnmarked : ¬ ((hexByte n ++ rest).head? = some 48 ∧
      ((hexByte n ++ rest)[1]? = some 120 ∨ (hexByte n ++ rest)[1]? = some 88)) := by
    simp [hexByte, hNoMark]
  have hDigits : hexDigitsPrefix false (hexByte n ++ rest) = some (n, rest) := by
    rw [hexDigitsPrefix, if_neg hUnmarked, hTake, hDrop, hValue, wordValue, if_neg (by omega : ¬ 2 ^ 64 ≤ n),
      if_neg Bool.false_ne_true]
    simp [hexByte]
  rw [hexPrefix, hSkip]
  change (if hexChar (n / 16) = 45 then _ else if hexChar (n / 16) = 43 then _ else _) = _
  rw [if_neg hOther.1, if_neg hOther.2.1]
  exact hDigits

theorem digitsValue_hundredths (n : Nat) : digitsValue (natText (n / 100) ++ paddedText 2 n) = n := by
  have hPadded : paddedText 2 n = [UInt8.ofNat (48 + n / 10 % 10)] ++ [UInt8.ofNat (48 + n % 10)] := rfl
  rw [hPadded, ← List.append_assoc, digitsValue_append_digit _ (Nat.mod_lt n (by decide)),
    digitsValue_append_digit _ (Nat.mod_lt (n / 10) (by decide)), digitsValue_natText]
  omega

theorem isDigit_of_mem_paddedText {digits n : Nat} {c : UInt8} (h : c ∈ paddedText digits n) : isDigit c = true := by
  induction digits generalizing n with
  | zero => cases h
  | succ digits ih =>
    rcases List.mem_append.mp h with hFront | hLast
    · exact ih hFront
    · rw [List.mem_singleton.mp hLast]
      exact (isDigit_iff _).mpr (isDigit_ofNat (Nat.mod_lt n (by decide)))

theorem pointPrefix_hundredths (n : Nat) {rest : Text} (hRest : ∀ c ∈ rest.head?, isDigit c = false) :
    pointPrefix (hundredths n ++ rest) = some ((n : ℚ) / 100, rest) := by
  have hText : hundredths n ++ rest = natText (n / 100) ++ 46 :: (paddedText 2 n ++ rest) := by
    rw [hundredths, List.append_assoc, List.cons_append]
  have hWhole : ∀ c ∈ natText (n / 100), isDigit c = true := fun c hc =>
    (isDigit_iff c).mpr (isDigit_of_mem_natText hc)
  have hPoint : isDigit 46 = false := rfl
  have hTake : (hundredths n ++ rest).takeWhile isDigit = natText (n / 100) := by
    rw [hText, List.takeWhile_append_of_pos hWhole, List.takeWhile_cons_of_neg (by rw [hPoint]; decide),
      List.append_nil]
  have hDrop : (hundredths n ++ rest).dropWhile isDigit = 46 :: (paddedText 2 n ++ rest) := by
    rw [hText, List.dropWhile_append_of_pos hWhole, List.dropWhile_cons_of_neg (by rw [hPoint]; decide)]
  have hDecimals : (paddedText 2 n ++ rest).takeWhile isDigit = paddedText 2 n := by
    rw [List.takeWhile_append_of_pos fun c hc => isDigit_of_mem_paddedText hc]
    cases rest with
    | nil => simp
    | cons c rest => simp [hRest c rfl]
  have hLeft : (paddedText 2 n ++ rest).dropWhile isDigit = rest := by
    rw [List.dropWhile_append_of_pos fun c hc => isDigit_of_mem_paddedText hc]
    cases rest with
    | nil => rfl
    | cons c rest => simp [hRest c rfl]
  have hLength : (paddedText 2 n).length = 2 := rfl
  rw [pointPrefix, hTake, hDrop]
  simp only [List.head?_cons, if_true, List.tail_cons, hDecimals, hLeft, digitsValue_hundredths, hLength]
  rw [if_neg (by simp [natText_ne_nil])]
  norm_num

theorem head_hundredths (n : Nat) : ∃ c s, hundredths n = c :: s ∧ IsDigit c := by
  obtain ⟨c, s, hText⟩ := List.exists_cons_of_ne_nil (natText_ne_nil (n / 100))
  refine ⟨c, s ++ 46 :: paddedText 2 n, ?_, isDigit_of_mem_natText (n := n / 100) ?_⟩
  · rw [hundredths, hText, List.cons_append]
  · rw [hText]
    exact List.mem_cons_self

theorem realPrefix_hundredths {blanks : Text} (hBlanks : ∀ c ∈ blanks, isSpace c = true) (n : Nat) {rest : Text}
    (hRest : ∀ c ∈ rest.head?, isDigit c = false) :
    realPrefix (blanks ++ (hundredths n ++ rest)) = some ((n : ℚ) / 100, rest) := by
  have hPoint := pointPrefix_hundredths n hRest
  obtain ⟨c, s, hText, hDigit⟩ := head_hundredths n
  obtain ⟨hSpace, hMinus, hPlus⟩ := isDigit_starts hDigit
  rw [hText, List.cons_append] at hPoint ⊢
  have hHead : ∀ b ∈ (c :: (s ++ rest)).head?, isSpace b = false := by
    intro b hb
    obtain rfl := Option.some.inj hb
    exact hSpace
  rw [realPrefix, skipSpace_blanks hBlanks hHead]
  simp only [if_neg hMinus, if_neg hPlus]
  exact hPoint

end HttpMonitoring.Library.Scanf
