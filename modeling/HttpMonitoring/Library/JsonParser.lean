import HttpMonitoring.Library.JsonEscape

/-!
# Reading JSON text

A parser for the texts of RFC values without `null`. White space may stand
between the tokens, a number is taken as long as possible, the bodies of
strings are checked and kept as they stand, and an object that has the same
key twice is refused. The text of a well-formed value is read back as the
value.
-/

namespace HttpMonitoring.Library.JsonParser

open JsonText JsonEscape

def isBlank (c : UInt8) : Bool := c == 32 || c == 9 || c == 10 || c == 13

def skipBlanks (t : Text) : Text := t.dropWhile isBlank

def isDigit (c : UInt8) : Bool := 48 ≤ c && c ≤ 57

def isEscape (c : UInt8) : Bool := (simpleEscape c).isSome

def isHex (c : UInt8) : Bool := (hexDigit c).isSome

/-- The body of a string up to its closing quote, and what stands behind. -/
def parseBody : Text → Option (Text × Text)
  | [] => none
  | c :: rest =>
    if c = 34 then some ([], rest)
    else if c = 92 then
      match rest with
      | 117 :: p :: q :: r :: s :: rest =>
        if isHex p && isHex q && isHex r && isHex s then
          (parseBody rest).map fun b => (92 :: 117 :: p :: q :: r :: s :: b.1, b.2)
        else none
      | d :: rest => if isEscape d then (parseBody rest).map fun b => (92 :: d :: b.1, b.2) else none
      | [] => none
    else if 32 ≤ c then (parseBody rest).map fun b => (c :: b.1, b.2)
    else none

def parseDigits (t : Text) : Option (Text × Text) :=
  if t.takeWhile isDigit = [] then none else some (t.takeWhile isDigit, t.dropWhile isDigit)

/-- A zero ends the integer part. -/
def parseInteger (t : Text) : Option (Text × Text) :=
  if t.head? = some 48 then some ([48], t.tail) else parseDigits t

def parseFraction (t : Text) : Option (Text × Text) :=
  if t.head? = some 46 then (parseDigits t.tail).map fun d => (46 :: d.1, d.2) else some ([], t)

def parseSign (signs : List UInt8) (t : Text) : Text × Text :=
  match t with
  | [] => ([], [])
  | c :: rest => if c ∈ signs then ([c], rest) else ([], c :: rest)

def parseExponent (t : Text) : Option (Text × Text) :=
  match t with
  | [] => some ([], [])
  | e :: rest =>
    if e = 101 ∨ e = 69 then
      let (sign, rest) := parseSign [43, 45] rest
      (parseDigits rest).map fun d => (e :: (sign ++ d.1), d.2)
    else some ([], e :: rest)

def parseNumber (t : Text) : Option (Text × Text) := do
  let (sign, t) := parseSign [45] t
  let (integer, t) ← parseInteger t
  let (fraction, t) ← parseFraction t
  let (exponent, t) ← parseExponent t
  return (sign ++ integer ++ fraction ++ exponent, t)

/-- What stands behind a word. -/
def parseWord (word t : Text) : Option Text := if word <+: t then some (t.drop word.length) else none

mutual

def parseValue : Nat → Text → Option (Value × Text)
  | 0, _ => none
  | fuel + 1, t =>
    match skipBlanks t with
    | [] => none
    | c :: rest =>
      if c = 34 then (parseBody rest).map fun b => (.string b.1, b.2)
      else if c = 91 then
        if (skipBlanks rest).head? = some 93 then some (.array [], (skipBlanks rest).tail)
        else (parseElements fuel rest).map fun e => (.array e.1, e.2)
      else if c = 123 then
        if (skipBlanks rest).head? = some 125 then some (.object [], (skipBlanks rest).tail)
        else
          (parseMembers fuel rest).bind fun m =>
            if (m.1.map Prod.fst).Nodup then some (.object m.1, m.2) else none
      else if c = 116 then (parseWord (boolText true) (c :: rest)).map fun u => (.bool true, u)
      else if c = 102 then (parseWord (boolText false) (c :: rest)).map fun u => (.bool false, u)
      else (parseNumber (c :: rest)).map fun n => (.number n.1, n.2)

/-- The elements behind an opening bracket or a comma, up to the closing
bracket. -/
def parseElements : Nat → Text → Option (List Value × Text)
  | 0, _ => none
  | fuel + 1, t => do
    let (v, t) ← parseValue fuel t
    match skipBlanks t with
    | [] => none
    | c :: rest =>
      if c = 93 then return ([v], rest)
      else if c = comma then
        let (elements, rest) ← parseElements fuel rest
        return (v :: elements, rest)
      else none

/-- The members behind an opening brace or a comma, up to the closing brace. -/
def parseMembers : Nat → Text → Option (List (Text × Value) × Text)
  | 0, _ => none
  | fuel + 1, t => do
    let t ← parseWord [34] (skipBlanks t)
    let (k, t) ← parseBody t
    let t ← parseWord [58] (skipBlanks t)
    let (v, t) ← parseValue fuel t
    match skipBlanks t with
    | [] => none
    | c :: rest =>
      if c = 125 then return ([(k, v)], rest)
      else if c = comma then
        let (members, rest) ← parseMembers fuel rest
        return ((k, v) :: members, rest)
      else none

end

/-- One value with nothing but white space around it. -/
def parse (t : Text) : Option Value :=
  (parseValue (t.length + 1) t).bind fun v => if skipBlanks v.2 = [] then some v.1 else none

theorem skipBlanks_cons {c : UInt8} (h : isBlank c = false) (rest : Text) :
    skipBlanks (c :: rest) = c :: rest :=
  List.dropWhile_cons_of_neg (Bool.eq_false_iff.mp h)

theorem skipBlanks_eq_nil {blanks : Text} (h : ∀ c ∈ blanks, isBlank c = true) : skipBlanks blanks = [] :=
  List.dropWhile_eq_nil_iff.mpr h

theorem isHex_iff (c : UInt8) : isHex c = true ↔ IsHexDigit c := by
  rw [isHex, hexDigit, IsHexDigit, IsDigit]
  split_ifs with hDecimal hUpper hLower
  · exact iff_of_true rfl (Or.inl hDecimal)
  · exact iff_of_true rfl (Or.inr (Or.inl hUpper))
  · exact iff_of_true rfl (Or.inr (Or.inr hLower))
  · refine iff_of_false Bool.false_ne_true ?_
    rintro (h | h | h)
    · exact hDecimal h
    · exact hUpper h
    · exact hLower h

theorem isEscape_of_mem {c : UInt8} (h : c ∈ [34, 92, 47, 98, 102, 110, 114, 116]) :
    isEscape c = true ∧ c ≠ 117 := by
  simp only [List.mem_cons, List.not_mem_nil, or_false] at h
  rcases h with rfl | rfl | rfl | rfl | rfl | rfl | rfl | rfl <;> exact ⟨rfl, by decide⟩

theorem parseBody_escape {d : UInt8} (hEscape : isEscape d = true) (hLetter : d ≠ 117) (rest : Text) :
    parseBody (92 :: d :: rest) = (parseBody rest).map fun b => (92 :: d :: b.1, b.2) := by
  rw [parseBody, if_neg (by decide), if_pos rfl, if_pos hEscape]
  rintro p q r s rest hUnit -
  exact hLetter hUnit

theorem parseBody_quoted {body : Text} (h : IsBody body) (rest : Text) :
    parseBody (body ++ 34 :: rest) = some (body, rest) := by
  induction h with
  | nil => rw [List.nil_append, parseBody.eq_def]; rfl
  | plain hc _ ih =>
    rw [List.cons_append, parseBody.eq_def]
    simp only [if_neg hc.2.1, if_neg hc.2.2, if_pos hc.1, ih, Option.map_some]
  | escape hc _ ih =>
    obtain ⟨hEscape, hLetter⟩ := isEscape_of_mem hc
    rw [List.cons_append, List.cons_append, parseBody_escape hEscape hLetter, ih, Option.map_some]
  | unicode hDigits _ ih =>
    obtain ⟨ha, hb, hc, hd⟩ := hDigits
    rw [← isHex_iff] at ha hb hc hd
    simp only [List.cons_append]
    rw [parseBody, if_neg (by decide), if_pos rfl, ha, hb, hc, hd, ih]
    rfl

theorem parseWord_append (word rest : Text) : parseWord word (word ++ rest) = some rest := by
  rw [parseWord, if_pos (List.prefix_append word rest), List.drop_left]

/-- No digit comes next. -/
def Stops (t : Text) : Prop := ∀ c ∈ t.head?, isDigit c = false

/-- Nothing comes next that could go on with a number. -/
def Ends (t : Text) : Prop := ∀ c ∈ t.head?, isDigit c = false ∧ c ≠ 46 ∧ c ≠ 101 ∧ c ≠ 69

theorem Ends.stops {t : Text} (h : Ends t) : Stops t := fun c hc => (h c hc).1

theorem isDigit_iff (c : UInt8) : isDigit c = true ↔ IsDigit c := by
  rw [isDigit, Bool.and_eq_true, decide_eq_true_eq, decide_eq_true_eq, IsDigit]

theorem parseDigits_append {digits rest : Text} (h : IsDigits digits) (hRest : Stops rest) :
    parseDigits (digits ++ rest) = some (digits, rest) := by
  have hDigits : ∀ c ∈ digits, isDigit c = true := fun c hc => (isDigit_iff c).mpr (h.2 c hc)
  have hTake : (digits ++ rest).takeWhile isDigit = digits := by
    rw [List.takeWhile_append_of_pos hDigits]
    cases rest with
    | nil => simp
    | cons c rest => simp [hRest c rfl]
  have hDrop : (digits ++ rest).dropWhile isDigit = rest := by
    rw [List.dropWhile_append_of_pos hDigits]
    cases rest with
    | nil => rfl
    | cons c rest => simp [hRest c rfl]
  rw [parseDigits, hTake, hDrop, if_neg h.1]

theorem parseInteger_append {integer rest : Text} (h : IsInteger integer) (hRest : Stops rest) :
    parseInteger (integer ++ rest) = some (integer, rest) := by
  obtain ⟨hDigits, hZero⟩ := h
  have hHead : (integer ++ rest).head? = integer.head? := List.head?_append_of_ne_nil _ hDigits.1
  rw [parseInteger, hHead]
  split
  · rename_i hFirst
    rw [hZero hFirst]
    rfl
  · exact parseDigits_append hDigits hRest

theorem parseFraction_append {fraction rest : Text} (h : IsFraction fraction) (hRest : Stops rest)
    (hPoint : rest.head? ≠ some 46) : parseFraction (fraction ++ rest) = some (fraction, rest) := by
  rcases h with rfl | ⟨digits, hDigits, rfl⟩
  · rw [List.nil_append, parseFraction, if_neg hPoint]
  · rw [List.cons_append, parseFraction, List.head?_cons, if_pos rfl, List.tail_cons,
      parseDigits_append hDigits hRest, Option.map_some]

theorem parseSign_append {signs : List UInt8} {sign rest : Text}
    (h : sign = [] ∨ ∃ c ∈ signs, sign = [c]) (hRest : ∀ c ∈ rest.head?, c ∉ signs) :
    parseSign signs (sign ++ rest) = (sign, rest) := by
  rcases h with rfl | ⟨c, hc, rfl⟩
  · cases rest with
    | nil => rfl
    | cons c rest => exact if_neg (hRest c rfl)
  · exact if_pos hc

theorem head_digits {digits : Text} (h : IsDigits digits) {rest : Text} :
    ∀ c ∈ (digits ++ rest).head?, IsDigit c := by
  intro c hc
  rw [List.head?_append_of_ne_nil _ h.1] at hc
  exact h.2 c (List.mem_of_mem_head? hc)

/-- A digit is no sign. -/
theorem notMem_signs {c : UInt8} (h : IsDigit c) : c ∉ [43, 45] := by
  intro hSign
  rcases List.mem_cons.mp hSign with rfl | hSign
  · exact absurd h.1 (by decide)
  · rw [List.mem_singleton.mp hSign] at h
    exact absurd h.1 (by decide)

theorem parseExponent_append {exponent rest : Text} (h : IsExponent exponent) (hRest : Ends rest) :
    parseExponent (exponent ++ rest) = some (exponent, rest) := by
  rcases h with rfl | ⟨e, sign, digits, he, hSign, hDigits, rfl⟩
  · cases rest with
    | nil => rfl
    | cons c rest =>
      obtain ⟨-, -, hLower, hUpper⟩ := hRest c rfl
      exact if_neg (not_or.mpr ⟨hLower, hUpper⟩)
  · have hSigned : sign = [] ∨ ∃ c ∈ [(43 : UInt8), 45], sign = [c] := by
      rcases hSign with rfl | rfl | rfl
      · exact Or.inl rfl
      · exact Or.inr ⟨43, by simp, rfl⟩
      · exact Or.inr ⟨45, by simp, rfl⟩
    have hParse : parseSign [43, 45] (sign ++ (digits ++ rest)) = (sign, digits ++ rest) :=
      parseSign_append hSigned fun c hc => notMem_signs (head_digits hDigits c hc)
    rw [List.cons_append, List.append_assoc, parseExponent, if_pos he, hParse]
    dsimp only
    rw [parseDigits_append hDigits hRest.stops, Option.map_some]

theorem parseNumber_append {t rest : Text} (h : IsNumber t) (hRest : Ends rest) :
    parseNumber (t ++ rest) = some (t, rest) := by
  obtain ⟨sign, integer, fraction, exponent, hSign, hInteger, hFraction, hExponent, rfl⟩ := h
  have hBehindFraction : Stops (exponent ++ rest) ∧ (exponent ++ rest).head? ≠ some 46 := by
    rcases hExponent with rfl | ⟨e, sign, digits, he, -, -, rfl⟩
    · exact ⟨hRest.stops, fun hPoint => (hRest 46 hPoint).2.1 rfl⟩
    · rw [List.cons_append]
      have hLetter : isDigit e = false ∧ e ≠ 46 := by
        rcases he with rfl | rfl <;> exact ⟨rfl, by decide⟩
      refine ⟨fun c hc => ?_, fun hPoint => hLetter.2 (Option.some.inj hPoint)⟩
      obtain rfl := Option.some.inj hc
      exact hLetter.1
  have hBehindInteger : Stops (fraction ++ (exponent ++ rest)) := by
    rcases hFraction with rfl | ⟨digits, -, rfl⟩
    · exact hBehindFraction.1
    · intro c hc
      obtain rfl := Option.some.inj hc
      rfl
  have hSigned : sign = [] ∨ ∃ c ∈ [(45 : UInt8)], sign = [c] :=
    hSign.imp id fun h => ⟨45, by simp, h⟩
  have hUnsigned : ∀ c ∈ (integer ++ (fraction ++ (exponent ++ rest))).head?, c ∉ [(45 : UInt8)] :=
    fun c hc hMinus => notMem_signs (head_digits hInteger.1 c hc) (List.mem_cons_of_mem _ hMinus)
  have hText : sign ++ integer ++ fraction ++ exponent ++ rest =
      sign ++ (integer ++ (fraction ++ (exponent ++ rest))) := by
    simp only [List.append_assoc]
  rw [hText, parseNumber, parseSign_append hSigned hUnsigned]
  dsimp only
  rw [parseInteger_append hInteger hBehindInteger]
  dsimp only [bind, Option.bind]
  rw [parseFraction_append hFraction hBehindFraction.1 hBehindFraction.2]
  dsimp only
  rw [parseExponent_append hExponent hRest]
  rfl

/-- A number starts with a digit or a minus sign. -/
theorem head_number {t : Text} (h : IsNumber t) : ∃ c rest, t = c :: rest ∧ (IsDigit c ∨ c = 45) := by
  obtain ⟨sign, integer, fraction, exponent, hSign, ⟨⟨hNonempty, hDigits⟩, -⟩, -, -, rfl⟩ := h
  rcases hSign with rfl | rfl
  · obtain ⟨c, rest, rfl⟩ := List.exists_cons_of_ne_nil hNonempty
    exact ⟨c, rest ++ fraction ++ exponent, rfl, Or.inl (hDigits c List.mem_cons_self)⟩
  · exact ⟨45, integer ++ fraction ++ exponent, rfl, Or.inr rfl⟩

/-- The bytes of a number are all behind the plus sign. -/
theorem le_of_mem_number {t : Text} (h : IsNumber t) : ∀ c ∈ t, 43 ≤ c := by
  have hDigit : ∀ {c : UInt8}, IsDigit c → 43 ≤ c := fun h => UInt8.le_trans (by decide) h.1
  obtain ⟨sign, integer, fraction, exponent, hSign, ⟨⟨-, hDigits⟩, -⟩, hFraction, hExponent, rfl⟩ := h
  intro c hc
  rw [List.mem_append, List.mem_append, List.mem_append] at hc
  rcases hc with ((hc | hc) | hc) | hc
  · rcases hSign with rfl | rfl
    · cases hc
    · rw [List.mem_singleton.mp hc]
      decide
  · exact hDigit (hDigits c hc)
  · rcases hFraction with rfl | ⟨digits, hDigits, rfl⟩
    · cases hc
    · rcases List.mem_cons.mp hc with rfl | hc
      · decide
      · exact hDigit (hDigits.2 c hc)
  · rcases hExponent with rfl | ⟨e, sign, digits, he, hSign, hDigits, rfl⟩
    · cases hc
    · rcases List.mem_cons.mp hc with rfl | hc
      · rcases he with rfl | rfl <;> decide
      · rcases List.mem_append.mp hc with hc | hc
        · rcases hSign with rfl | rfl | rfl
          · cases hc
          · rw [List.mem_singleton.mp hc]
            decide
          · rw [List.mem_singleton.mp hc]
            decide
        · exact hDigit (hDigits.2 c hc)

theorem starts_number {c : UInt8} (h : IsDigit c ∨ c = 45) :
    isBlank c = false ∧ c ∉ [34, 91, 93, 123, 116, 102] := by
  have hBytes : 45 ≤ c ∧ c ≤ 57 := by
    rcases h with ⟨hLow, hHigh⟩ | rfl
    · exact ⟨UInt8.le_trans (by decide) hLow, hHigh⟩
    · exact ⟨by decide, by decide⟩
  refine ⟨?_, ?_⟩
  · rw [isBlank]
    grind
  · grind

/-- The first byte of a value. -/
theorem head_text {v : Value} (h : WellFormed v) : ∃ c rest, v.text = c :: rest ∧ isBlank c = false ∧
    c ≠ 93 := by
  cases h with
  | number h =>
    obtain ⟨c, rest, rfl, hFirst⟩ := head_number h
    obtain ⟨hBlank, hOther⟩ := starts_number hFirst
    refine ⟨c, rest, text_number _, hBlank, ?_⟩
    rintro rfl
    exact hOther (by decide)
  | string h => exact ⟨34, _, text_string _, rfl, by decide⟩
  | bool b =>
    cases b with
    | true => exact ⟨116, _, text_bool true, rfl, by decide⟩
    | false => exact ⟨102, _, text_bool false, rfl, by decide⟩
  | array h => exact ⟨91, _, text_array _, rfl, by decide⟩
  | object hKeys hValues hDistinct => exact ⟨123, _, text_object _, rfl, by decide⟩

theorem skipBlanks_text {v : Value} (h : WellFormed v) (rest : Text) :
    skipBlanks (v.text ++ rest) = v.text ++ rest := by
  obtain ⟨c, t, hText, hBlank, -⟩ := head_text h
  rw [hText, List.cons_append, skipBlanks_cons hBlank]

theorem text_length_pos {v : Value} (h : WellFormed v) : 0 < v.text.length := by
  obtain ⟨c, t, hText, -⟩ := head_text h
  rw [hText, List.length_cons]
  exact Nat.succ_pos _

/-- The value is read from the front of every text in which no number goes on
behind it. -/
def ReadBack (v : Value) : Prop :=
  ∀ fuel rest, v.text.length ≤ fuel → Ends rest → parseValue fuel (v.text ++ rest) = some (v, rest)

theorem ends_of_delimiter {c : UInt8} (h : isDigit c = false ∧ c ≠ 46 ∧ c ≠ 101 ∧ c ≠ 69) (rest : Text) :
    Ends (c :: rest) := by
  intro d hd
  obtain rfl := Option.some.inj hd
  exact h

theorem parseElements_append {v : Value} {elements : List Value}
    (hWell : ∀ u ∈ v :: elements, WellFormed u) (h : ∀ u ∈ v :: elements, ReadBack u) {fuel : Nat} {rest : Text}
    (hFuel : (commaSep ((v :: elements).map Value.text)).length < fuel) :
    parseElements fuel (commaSep ((v :: elements).map Value.text) ++ 93 :: rest) =
      some (v :: elements, rest) := by
  induction elements generalizing v fuel with
  | nil =>
    obtain ⟨fuel, rfl⟩ := Nat.exists_eq_succ_of_ne_zero (Nat.ne_zero_of_lt hFuel)
    have hValue : parseValue fuel (v.text ++ 93 :: rest) = some (v, 93 :: rest) :=
      h v List.mem_cons_self fuel _ (Nat.le_of_lt_succ hFuel) (ends_of_delimiter (by decide) rest)
    rw [List.map_singleton, commaSep_singleton, parseElements, hValue]
    rfl
  | cons u elements ih =>
    obtain ⟨fuel, rfl⟩ := Nat.exists_eq_succ_of_ne_zero (Nat.ne_zero_of_lt hFuel)
    have hPositive := text_length_pos (hWell v List.mem_cons_self)
    simp only [List.map_cons, commaSep_cons_cons, List.length_append, List.length_cons] at hFuel
    have hRoom : (commaSep ((u :: elements).map Value.text)).length < fuel := by
      simp only [List.map_cons]
      omega
    have hTail := ih (fun x hx => hWell x (List.mem_cons_of_mem _ hx))
      (fun x hx => h x (List.mem_cons_of_mem _ hx)) hRoom
    have hValue := h v List.mem_cons_self fuel
      (comma :: (commaSep ((u :: elements).map Value.text) ++ 93 :: rest)) (by omega)
      (ends_of_delimiter (by decide) _)
    simp only [List.map_cons, commaSep_cons_cons, List.append_assoc, List.cons_append] at hTail hValue ⊢
    rw [parseElements, hValue]
    dsimp only [bind, Option.bind]
    rw [skipBlanks_cons (by decide)]
    dsimp only
    rw [if_neg (by decide), if_pos rfl, hTail]
    rfl

/-- One member and the byte behind it. -/
theorem parseMembers_member {m : Text × Value} (hKey : IsBody m.1) (h : ReadBack m.2) {fuel : Nat}
    (hFuel : m.2.text.length ≤ fuel) {c : UInt8} (hDelimiter : c = 125 ∨ c = comma) (rest : Text) :
    parseMembers (fuel + 1) (memberText m ++ c :: rest) =
      if c = 125 then some ([m], rest)
      else (parseMembers fuel rest).map fun others => (m :: others.1, others.2) := by
  have hQuote : parseWord [34] (skipBlanks (memberText m ++ c :: rest)) =
      some (m.1 ++ 34 :: 58 :: (m.2.text ++ c :: rest)) := by
    have hText : memberText m ++ c :: rest = 34 :: (m.1 ++ 34 :: 58 :: (m.2.text ++ c :: rest)) := by
      simp [memberText, quoted]
    rw [hText, skipBlanks_cons (by decide)]
    exact parseWord_append [34] _
  have hColon : parseWord [58] (skipBlanks (58 :: (m.2.text ++ c :: rest))) = some (m.2.text ++ c :: rest) := by
    rw [skipBlanks_cons (by decide)]
    exact parseWord_append [58] _
  have hEnds : isDigit c = false ∧ c ≠ 46 ∧ c ≠ 101 ∧ c ≠ 69 := by
    rcases hDelimiter with rfl | rfl <;> decide
  have hBlank : isBlank c = false := by
    rcases hDelimiter with rfl | rfl <;> decide
  have hValue := h fuel (c :: rest) hFuel (ends_of_delimiter hEnds rest)
  rw [parseMembers, hQuote]
  dsimp only [bind, Option.bind]
  rw [parseBody_quoted hKey]
  dsimp only
  rw [hColon]
  dsimp only
  rw [hValue]
  dsimp only
  rw [skipBlanks_cons hBlank]
  rcases hDelimiter with rfl | rfl
  · rfl
  · dsimp only
    rw [if_neg (by decide : comma ≠ 125), if_pos rfl, if_neg (by decide : comma ≠ 125)]
    cases parseMembers fuel rest <;> rfl

theorem parseMembers_append {m : Text × Value} {members : List (Text × Value)}
    (hKeys : ∀ n ∈ m :: members, IsBody n.1) (h : ∀ n ∈ m :: members, ReadBack n.2) {fuel : Nat} {rest : Text}
    (hFuel : (commaSep ((m :: members).map memberText)).length < fuel) :
    parseMembers fuel (commaSep ((m :: members).map memberText) ++ 125 :: rest) =
      some (m :: members, rest) := by
  have hLength : ∀ n : Text × Value, n.2.text.length + 3 ≤ (memberText n).length := by
    intro n
    simp only [memberText, quoted, List.length_append, List.length_cons, List.length_nil]
    omega
  have hFirst := hLength m
  obtain ⟨hKey, hOtherKeys⟩ := List.forall_mem_cons.mp hKeys
  obtain ⟨hRead, hOthersRead⟩ := List.forall_mem_cons.mp h
  induction members generalizing m fuel with
  | nil =>
    obtain ⟨fuel, rfl⟩ := Nat.exists_eq_succ_of_ne_zero (Nat.ne_zero_of_lt hFuel)
    rw [List.map_singleton, commaSep_singleton] at hFuel ⊢
    rw [parseMembers_member hKey hRead (by omega) (Or.inl rfl), if_pos rfl]
  | cons n members ih =>
    obtain ⟨fuel, rfl⟩ := Nat.exists_eq_succ_of_ne_zero (Nat.ne_zero_of_lt hFuel)
    simp only [List.map_cons, commaSep_cons_cons, List.length_append, List.length_cons] at hFuel
    obtain ⟨hNextKey, hNextKeys⟩ := List.forall_mem_cons.mp hOtherKeys
    obtain ⟨hNextRead, hNextsRead⟩ := List.forall_mem_cons.mp hOthersRead
    have hRoom : (commaSep ((n :: members).map memberText)).length < fuel := by
      simp only [List.map_cons]
      omega
    have hTail := ih hOtherKeys hOthersRead hRoom (hLength n) hNextKey hNextKeys hNextRead hNextsRead
    simp only [List.map_cons, commaSep_cons_cons, List.append_assoc, List.cons_append] at hTail ⊢
    rw [parseMembers_member hKey hRead (by omega) (Or.inr rfl), if_neg (by decide), hTail, Option.map_some]

theorem readBack_of {v : Value} (h : WellFormed v) (hStep : ∀ fuel rest, v.text.length ≤ fuel + 1 → Ends rest →
    parseValue (fuel + 1) (v.text ++ rest) = some (v, rest)) : ReadBack v := by
  intro fuel rest hFuel hRest
  cases fuel with
  | zero => exact absurd (text_length_pos h) (Nat.not_lt.mpr hFuel)
  | succ fuel => exact hStep fuel rest hFuel hRest

theorem readBack_number {digits : Text} (h : IsNumber digits) : ReadBack (.number digits) := by
  refine readBack_of (.number h) fun fuel rest _ hRest => ?_
  obtain ⟨c, others, rfl, hFirst⟩ := head_number h
  obtain ⟨hBlank, hOther⟩ := starts_number hFirst
  have hNumber := parseNumber_append h hRest
  simp only [List.mem_cons, List.not_mem_nil, or_false, not_or] at hOther
  obtain ⟨hQuote, hBracket, -, hBrace, hTrue, hFalse⟩ := hOther
  rw [List.cons_append] at hNumber
  rw [text_number, List.cons_append, parseValue, skipBlanks_cons hBlank]
  simp only [hQuote, hBracket, hBrace, hTrue, hFalse, hNumber, if_false, Option.map_some]

theorem readBack_string {body : Text} (h : IsBody body) : ReadBack (.string body) := by
  refine readBack_of (.string h) fun fuel rest _ _ => ?_
  have hText : (Value.string body).text ++ rest = 34 :: (body ++ 34 :: rest) := by simp [quoted]
  rw [hText, parseValue, skipBlanks_cons (by decide)]
  dsimp only
  rw [if_pos rfl, parseBody_quoted h, Option.map_some]

theorem readBack_bool (b : Bool) : ReadBack (.bool b) := by
  refine readBack_of (.bool b) fun fuel rest _ _ => ?_
  have hWord := parseWord_append (boolText b) rest
  rw [text_bool, parseValue, ← text_bool, skipBlanks_text (.bool b), text_bool]
  cases b with
  | true => exact congrArg (Option.map fun u => (Value.bool true, u)) hWord
  | false => exact congrArg (Option.map fun u => (Value.bool false, u)) hWord

theorem readBack_array {elements : List Value} (hWell : ∀ v ∈ elements, WellFormed v)
    (h : ∀ v ∈ elements, ReadBack v) : ReadBack (.array elements) := by
  refine readBack_of (.array hWell) fun fuel rest hFuel _ => ?_
  have hText : (Value.array elements).text ++ rest =
      91 :: (commaSep (elements.map Value.text) ++ 93 :: rest) := by simp
  rw [text_array, List.length_cons, List.length_append] at hFuel
  rw [hText, parseValue, skipBlanks_cons (by decide)]
  dsimp only
  rw [if_neg (by decide), if_pos rfl]
  cases elements with
  | nil => rfl
  | cons v elements =>
    obtain ⟨c, t, hFirst, hBlank, hOpen⟩ := head_text (hWell v List.mem_cons_self)
    have hInside : ∃ t, commaSep ((v :: elements).map Value.text) ++ 93 :: rest = c :: t := by
      rw [List.map_cons, commaSep_cons, hFirst]
      exact ⟨_, rfl⟩
    obtain ⟨t, hInside⟩ := hInside
    have hElements : parseElements fuel (commaSep ((v :: elements).map Value.text) ++ 93 :: rest) =
        some (v :: elements, rest) :=
      parseElements_append hWell h (by simp only [List.length_singleton] at hFuel; omega)
    rw [hInside] at hElements ⊢
    rw [skipBlanks_cons hBlank, List.head?_cons, if_neg fun hSame => hOpen (Option.some.inj hSame), hElements,
      Option.map_some]

theorem readBack_object {members : List (Text × Value)} (hKeys : ∀ m ∈ members, IsBody m.1)
    (hValues : ∀ m ∈ members, WellFormed m.2) (hDistinct : (members.map Prod.fst).Nodup)
    (h : ∀ m ∈ members, ReadBack m.2) : ReadBack (.object members) := by
  refine readBack_of (.object hKeys hValues hDistinct) fun fuel rest hFuel _ => ?_
  have hText : (Value.object members).text ++ rest =
      123 :: (commaSep (members.map memberText) ++ 125 :: rest) := by simp
  rw [text_object, List.length_cons, List.length_append] at hFuel
  rw [hText, parseValue, skipBlanks_cons (by decide)]
  dsimp only
  rw [if_neg (by decide), if_neg (by decide), if_pos rfl]
  cases members with
  | nil => rfl
  | cons m members =>
    have hInside : ∃ t, commaSep ((m :: members).map memberText) ++ 125 :: rest = 34 :: t := by
      rw [List.map_cons, commaSep_cons]
      exact ⟨_, rfl⟩
    obtain ⟨t, hInside⟩ := hInside
    have hMembers : parseMembers fuel (commaSep ((m :: members).map memberText) ++ 125 :: rest) =
        some (m :: members, rest) := parseMembers_append hKeys h (by simp only [List.length_singleton] at hFuel; omega)
    rw [hInside] at hMembers ⊢
    rw [skipBlanks_cons (by decide), List.head?_cons, if_neg (by decide), hMembers, Option.bind_some,
      if_pos hDistinct]

theorem parseValue_text {v : Value} (h : WellFormed v) : ReadBack v := by
  induction h with
  | number h => exact readBack_number h
  | string h => exact readBack_string h
  | bool b => exact readBack_bool b
  | array h ih => exact readBack_array h ih
  | object hKeys hValues hDistinct ih => exact readBack_object hKeys hValues hDistinct ih

/-- The text of a well-formed value and white space are read as the value. -/
theorem parse_text {v : Value} (h : WellFormed v) {blanks : Text} (hBlanks : ∀ c ∈ blanks, isBlank c = true) :
    parse (v.text ++ blanks) = some v := by
  have hEnds : Ends blanks := by
    intro c hc
    have hBlank := hBlanks c (List.mem_of_mem_head? hc)
    rw [isBlank] at hBlank
    have hFour : c = 32 ∨ c = 9 ∨ c = 10 ∨ c = 13 := by simpa [or_assoc] using hBlank
    rcases hFour with rfl | rfl | rfl | rfl <;> decide
  have hValue := parseValue_text h ((v.text ++ blanks).length + 1) blanks
    (by rw [List.length_append]; omega) hEnds
  rw [parse, hValue, Option.bind_some, if_pos (skipBlanks_eq_nil hBlanks)]

end HttpMonitoring.Library.JsonParser
