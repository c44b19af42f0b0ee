import HttpMonitoring.Library.Decimal

/-!
# `sscanf` and texts of lines

A format is a list of directives and a scan is the list of what it assigns, so
that its length is the result of `sscanf` unless that is an `EOF`. Numbers are
read as `strtoull` does.
-/

namespace HttpMonitoring.Library.Scanf

open JsonText Decimal

/-- White space, a byte, `%llu` or `%u`, and `%Ns`; without `assign` the
conversion is one with an asterisk. -/
inductive Directive
  | white
  | literal (byte : UInt8)
  | unsigned (assign : Bool)
  | word (width : Nat) (assign : Bool)
deriving DecidableEq

inductive Item
  | number (n : Nat)
  | word (s : Text)
deriving DecidableEq

def Item.toNat : Item → Nat
  | .number n => n
  | .word _ => 0

def Item.text : Item → Text
  | .number _ => []
  | .word s => s

def literals (s : Text) : List Directive := s.map .literal

def isSpace (c : UInt8) : Bool := c == 32 || (9 ≤ c && c ≤ 13)

def isDigit (c : UInt8) : Bool := 48 ≤ c && c ≤ 57

def skipSpace (s : Text) : Text := s.dropWhile isSpace

def digitsValue (s : Text) : Nat := s.foldl (fun n c => 10 * n + (c.toNat - 48)) 0

/-- The value of a subject sequence: the largest one on an overflow, and the
negation in the word after a minus sign. -/
def wordValue (negative : Bool) (n : Nat) : Nat :=
  if 2 ^ 64 ≤ n then 2 ^ 64 - 1 else if negative then (2 ^ 64 - n) % 2 ^ 64 else n

/-- The value of the digits, and what stands behind them. -/
def digitsPrefix (negative : Bool) (s : Text) : Option (Nat × Text) :=
  if s.takeWhile isDigit = [] then none
  else some (wordValue negative (digitsValue (s.takeWhile isDigit)), s.dropWhile isDigit)

def numberPrefix (s : Text) : Option (Nat × Text) :=
  match skipSpace s with
  | [] => none
  | c :: rest =>
    if c = 45 then digitsPrefix true rest
    else if c = 43 then digitsPrefix false rest
    else digitsPrefix false (c :: rest)

def wordPrefix (width : Nat) (s : Text) : Option (Text × Text) :=
  let found := ((skipSpace s).takeWhile fun c => !isSpace c).take width
  if found = [] then none else some (found, (skipSpace s).drop found.length)

def scan : List Directive → Text → List Item
  | [], _ => []
  | .white :: format, s => scan format (skipSpace s)
  | .literal _ :: _, [] => []
  | .literal byte :: format, c :: s => if c = byte then scan format s else []
  | .unsigned assign :: format, s =>
    match numberPrefix s with
    | none => []
    | some (n, rest) => if assign then .number n :: scan format rest else scan format rest
  | .word width assign :: format, s =>
    match wordPrefix width s with
    | none => []
    | some (found, rest) => if assign then .word found :: scan format rest else scan format rest

def scanNumbers (format : List Directive) (s : Text) : List Nat := (scan format s).map Item.toNat

theorem isDigit_iff (c : UInt8) : isDigit c = true ↔ IsDigit c := by
  rw [isDigit, Bool.and_eq_true, decide_eq_true_eq, decide_eq_true_eq, IsDigit]

theorem digitsValue_append_digit (s : Text) {d : Nat} (h : d < 10) :
    digitsValue (s ++ [UInt8.ofNat (48 + d)]) = 10 * digitsValue s + d := by
  have hByte : (UInt8.ofNat (48 + d)).toNat = 48 + d := by
    rw [UInt8.toNat_ofNat']
    omega
  rw [digitsValue, List.foldl_append, List.foldl_cons, List.foldl_nil, hByte, digitsValue]
  omega

theorem digitsValue_natText (n : Nat) : digitsValue (natText n) = n := by
  induction n using Nat.strong_induction_on with
  | _ n ih =>
    rcases Nat.lt_or_ge n 10 with hLess | hGe
    · rw [natText_of_lt hLess]
      have hOne := digitsValue_append_digit [] hLess
      rw [List.nil_append] at hOne
      rw [hOne, digitsValue, List.foldl_nil]
      omega
    · rw [natText_of_ge hGe, digitsValue_append_digit _ (Nat.mod_lt n (by omega)), ih (n / 10) (by omega)]
      omega

theorem digitsPrefix_natText {n : Nat} (hn : n < 2 ^ 64) {rest : Text}
    (hRest : ∀ c ∈ rest.head?, isDigit c = false) :
    digitsPrefix false (natText n ++ rest) = some (n, rest) := by
  have hDigits : ∀ c ∈ natText n, isDigit c = true := fun c hc =>
    (isDigit_iff c).mpr (isDigit_of_mem_natText hc)
  have hTake : (natText n ++ rest).takeWhile isDigit = natText n := by
    rw [List.takeWhile_append_of_pos hDigits]
    cases rest with
    | nil => simp
    | cons c rest => simp [hRest c rfl]
  have hDrop : (natText n ++ rest).dropWhile isDigit = rest := by
    rw [List.dropWhile_append_of_pos hDigits]
    cases rest with
    | nil => rfl
    | cons c rest => simp [hRest c rfl]
  rw [digitsPrefix, hTake, hDrop, if_neg (natText_ne_nil n), digitsValue_natText, wordValue,
    if_neg (not_le.mpr hn), if_neg Bool.false_ne_true]

/-- A digit is neither white space nor a sign. -/
theorem isDigit_starts {c : UInt8} (h : IsDigit c) : isSpace c = false ∧ c ≠ 45 ∧ c ≠ 43 := by
  obtain ⟨hLow, -⟩ := h
  refine ⟨?_, ?_, ?_⟩
  · rw [isSpace, Bool.or_eq_false_iff, Bool.and_eq_false_iff]
    refine ⟨beq_false_of_ne ?_, Or.inr (decide_eq_false ?_)⟩
    · rintro rfl
      exact absurd hLow (by decide)
    · exact fun hSmall => absurd (UInt8.le_trans hLow hSmall) (by decide)
  · rintro rfl
    exact absurd hLow (by decide)
  · rintro rfl
    exact absurd hLow (by decide)

theorem skipSpace_blanks {blanks s : Text} (hBlanks : ∀ c ∈ blanks, isSpace c = true)
    (hs : ∀ c ∈ s.head?, isSpace c = false) : skipSpace (blanks ++ s) = s := by
  rw [skipSpace, List.dropWhile_append_of_pos hBlanks]
  cases s with
  | nil => rfl
  | cons c s => simp [hs c rfl]

/-- White space and a decimal number are read as the number. -/
theorem numberPrefix_natText {blanks rest : Text} {n : Nat} (hBlanks : ∀ c ∈ blanks, isSpace c = true)
    (hn : n < 2 ^ 64) (hRest : ∀ c ∈ rest.head?, isDigit c = false) :
    numberPrefix (blanks ++ natText n ++ rest) = some (n, rest) := by
  have hPrefix := digitsPrefix_natText hn hRest
  obtain ⟨c, digits, hText⟩ := List.exists_cons_of_ne_nil (natText_ne_nil n)
  rw [hText, List.cons_append] at hPrefix
  have hFirst : c ∈ natText n := hText ▸ List.mem_cons_self
  obtain ⟨hSpace, hMinus, hPlus⟩ := isDigit_starts (isDigit_of_mem_natText hFirst)
  have hHead : ∀ b ∈ (c :: (digits ++ rest)).head?, isSpace b = false := by
    intro b hb
    obtain rfl := Option.some.inj hb
    exact hSpace
  have hSkip : skipSpace (blanks ++ (c :: (digits ++ rest))) = c :: (digits ++ rest) :=
    skipSpace_blanks hBlanks hHead
  rw [List.append_assoc, hText, List.cons_append, numberPrefix, hSkip]
  simp only [if_neg hMinus, if_neg hPlus]
  exact hPrefix

theorem scan_literals (s : Text) (format : List Directive) (rest : Text) :
    scan (literals s ++ format) (s ++ rest) = scan format rest := by
  induction s with
  | nil => rfl
  | cons c s ih =>
    rw [literals, List.map_cons, List.cons_append, List.cons_append, scan, if_pos rfl]
    exact ih

/-- A conversion skips white space itself. -/
theorem scan_white_unsigned (assign : Bool) (format : List Directive) (s : Text) :
    scan (.white :: .unsigned assign :: format) s = scan (.unsigned assign :: format) s := by
  have hSkip : skipSpace (skipSpace s) = skipSpace s := List.dropWhile_idempotent isSpace s
  rw [scan, scan, scan, numberPrefix, numberPrefix, hSkip]

theorem scan_word {blanks word rest : Text} {width : Nat} (hBlanks : ∀ c ∈ blanks, isSpace c = true)
    (hWord : word ≠ []) (hPlain : ∀ c ∈ word, isSpace c = false) (hWidth : word.length ≤ width)
    (hRest : ∀ c ∈ rest.head?, isSpace c = true) (format : List Directive) :
    scan (.word width true :: format) (blanks ++ (word ++ rest)) = .word word :: scan format rest := by
  have hHead : ∀ c ∈ (word ++ rest).head?, isSpace c = false := by
    intro c hc
    rw [List.head?_append_of_ne_nil _ hWord] at hc
    exact hPlain c (List.mem_of_mem_head? hc)
  have hTake : (word ++ rest).takeWhile (fun c => !isSpace c) = word := by
    rw [List.takeWhile_append_of_pos fun c hc => by rw [hPlain c hc]; rfl]
    cases rest with
    | nil => simp
    | cons c rest => simp [hRest c rfl]
  have hPrefix : wordPrefix width (blanks ++ (word ++ rest)) = some (word, rest) := by
    rw [wordPrefix, skipSpace_blanks hBlanks hHead, hTake, List.take_of_length_le hWidth,
      if_neg hWord, List.drop_left]
  rw [scan, hPrefix]
  rfl

/-- Numbers in columns: each one behind at least one space. -/
def columns (cs : List (Nat × Nat)) : Text :=
  cs.flatMap fun c => List.replicate (c.1 + 1) 32 ++ natText c.2

def conversions (assigned : List Bool) : List Directive :=
  assigned.flatMap fun assign => [.white, .unsigned assign]

/-- The numbers of the columns that are assigned. -/
def assignedOf (assigned : List Bool) (cs : List (Nat × Nat)) : List Item :=
  (assigned.zip cs).filterMap fun c => if c.1 then some (.number c.2.2) else none

theorem isSpace_of_mem_replicate {c : UInt8} {n : Nat} (h : c ∈ List.replicate n (32 : UInt8)) :
    isSpace c = true := by
  rw [List.eq_of_mem_replicate h]
  rfl

theorem head_columns {cs : List (Nat × Nat)} {rest : Text} (hRest : ∀ c ∈ rest.head?, isDigit c = false) :
    ∀ c ∈ (columns cs ++ rest).head?, isDigit c = false := by
  cases cs with
  | nil => exact hRest
  | cons column cs =>
    rintro c hc
    obtain rfl := Option.some.inj hc
    rfl

theorem scan_columns {assigned : List Bool} {cs : List (Nat × Nat)} (hLength : assigned.length = cs.length)
    (hSmall : ∀ c ∈ cs, c.2 < 2 ^ 64) {rest : Text} (hRest : ∀ c ∈ rest.head?, isDigit c = false)
    (format : List Directive) : scan (conversions assigned ++ format) (columns cs ++ rest) =
      assignedOf assigned cs ++ scan format rest := by
  induction assigned generalizing cs with
  | nil =>
    obtain rfl := List.length_eq_zero_iff.mp hLength.symm
    rfl
  | cons assign assigned ih =>
    cases cs with
    | nil => cases hLength
    | cons c cs =>
      obtain ⟨hFirst, hSmall⟩ := List.forall_mem_cons.mp hSmall
      have hNext := ih (Nat.succ.inj hLength) hSmall
      have hPrefix : numberPrefix (List.replicate (c.1 + 1) 32 ++ natText c.2 ++ (columns cs ++ rest)) =
          some (c.2, columns cs ++ rest) :=
        numberPrefix_natText (fun b hb => isSpace_of_mem_replicate hb) hFirst (head_columns hRest)
      have hText : columns (c :: cs) ++ rest =
          List.replicate (c.1 + 1) 32 ++ natText c.2 ++ (columns cs ++ rest) := by
        rw [columns, List.flatMap_cons, columns, List.append_assoc]
      have hFormat : conversions (assign :: assigned) ++ format =
          .white :: .unsigned assign :: (conversions assigned ++ format) := rfl
      rw [hText, hFormat, scan_white_unsigned, scan, hPrefix]
      dsimp only
      rw [hNext]
      cases assign <;> rfl

/-- The lines that a loop over newlines sees; a text that ends in a newline has
no empty line behind it. -/
def lines : Text → List Text
  | [] => []
  | c :: s =>
    if c = 10 then [] :: lines s
    else match lines s with
      | [] => [[c]]
      | line :: rest => (c :: line) :: rest

theorem lines_append {line : Text} (h : (10 : UInt8) ∉ line) (rest : Text) :
    lines (line ++ 10 :: rest) = line :: lines rest := by
  induction line with
  | nil => rw [List.nil_append, lines, if_pos rfl]
  | cons c line ih =>
    obtain ⟨hc, hLine⟩ := not_or.mp (mt List.mem_cons.mpr h)
    rw [List.cons_append, lines, if_neg fun hSame => hc hSame.symm, ih hLine]

theorem newline_notMem_columns (cs : List (Nat × Nat)) : (10 : UInt8) ∉ columns cs := by
  intro h
  obtain ⟨c, -, hc⟩ := List.mem_flatMap.mp h
  rcases List.mem_append.mp hc with hBlank | hDigit
  · exact absurd (List.eq_of_mem_replicate hBlank) (by decide)
  · exact absurd (isDigit_of_mem_natText hDigit).1 (by decide)

end HttpMonitoring.Library.Scanf
