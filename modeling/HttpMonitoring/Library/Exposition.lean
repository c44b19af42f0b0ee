import HttpMonitoring.Library.JsonParser
import HttpMonitoring.Library.LabelledLines

/-!
# Texts of metrics

The line format that scrapers read, for metrics without labels and time stamps:
help and type of a metric in comments, and its value on a line of its own.
-/

namespace HttpMonitoring.Library.Exposition

open JsonText JsonParser Scanf LabelledLines

def isBlank (c : UInt8) : Bool := c == 32 || c == 9

def skipBlanks (s : Text) : Text := s.dropWhile isBlank

/-- The first word and what is behind it. -/
def word (s : Text) : Text × Text :=
  let s := skipBlanks s
  (s.takeWhile fun c => !isBlank c, skipBlanks (s.dropWhile fun c => !isBlank c))

def isLetter (c : UInt8) : Bool := (65 ≤ c && c ≤ 90) || (97 ≤ c && c ≤ 122) || c == 95 || c == 58

def IsName (t : Text) : Prop :=
  t ≠ [] ∧ (∀ c ∈ t.head?, isLetter c = true) ∧ ∀ c ∈ t, (isLetter c || Scanf.isDigit c) = true

instance (t : Text) : Decidable (IsName t) := inferInstanceAs (Decidable (_ ∧ _))

inductive Kind
  | counter
  | gauge
  | untyped
deriving DecidableEq

def Kind.text : Kind → Text
  | counter => [99, 111, 117, 110, 116, 101, 114]
  | gauge => [103, 97, 117, 103, 101]
  | untyped => [117, 110, 116, 121, 112, 101, 100]

def Kind.ofText? (t : Text) : Option Kind := [Kind.counter, .gauge, .untyped].find? fun k => k.text = t

inductive Line
  | help (name text : Text)
  | kind (name : Text) (kind : Kind)
  | sample (name value : Text)
  | comment
  | blank

/-- Backslash and newline are escaped in the text of a help. -/
def unescapeHelp : Text → Option Text
  | [] => some []
  | [c] => if c = 92 then none else some [c]
  | c :: e :: s =>
    if c = 92 then
      if e = 92 then (unescapeHelp s).map (92 :: ·)
      else if e = 110 then (unescapeHelp s).map (10 :: ·)
      else none
    else (unescapeHelp (e :: s)).map (c :: ·)

/-- Not a number, or one of the infinities. -/
def specialValues : List Text := [[78, 97, 78], [43, 73, 110, 102], [45, 73, 110, 102]]

def isValue (t : Text) : Bool := parseNumber t = some (t, []) || specialValues.any fun value => value = t

def helpWord : Text := [72, 69, 76, 80]

def typeWord : Text := [84, 89, 80, 69]

/-- What stands behind the sign of a comment. -/
def parseComment (s : Text) : Option Line :=
  let (keyword, rest) := word s
  let (name, rest) := word rest
  if keyword = helpWord then
    if IsName name then (unescapeHelp rest).map (Line.help name) else none
  else if keyword = typeWord then
    if IsName name then (Kind.ofText? rest).map (Line.kind name) else none
  else some .comment

def parseLine (line : Text) : Option Line :=
  match skipBlanks line with
  | [] => some .blank
  | c :: s =>
    if c = 35 then parseComment s
    else
      let (name, rest) := word (c :: s)
      let (value, rest) := word rest
      if IsName name ∧ isValue value = true ∧ rest = [] then some (.sample name value) else none

/-- What a text says of one metric. -/
structure Family where
  name : Text
  help : Option Text
  kind : Option Kind
  value : Option Text
deriving DecidableEq

/-- The family at hand, or a new one: the lines of a metric stand together. -/
def current (name : Text) (families : List Family) : Option (Family × List Family) :=
  match families with
  | [] => some (⟨name, none, none, none⟩, [])
  | f :: rest =>
    if f.name = name then some (f, rest)
    else if rest.any fun g => g.name = name then none
    else some (⟨name, none, none, none⟩, f :: rest)

/-- At most one help, one type and one value, and the type in front of the value. -/
def put (families : List Family) : Line → Option (List Family)
  | .help name text => do
    let (f, rest) ← current name families
    if f.help = none then some ({ f with help := some text } :: rest) else none
  | .kind name kind => do
    let (f, rest) ← current name families
    if f.kind = none ∧ f.value = none then some ({ f with kind := some kind } :: rest) else none
  | .sample name value => do
    let (f, rest) ← current name families
    if f.value = none then some ({ f with value := some value } :: rest) else none
  | .comment => some families
  | .blank => some families

/-- The families of a text, the last line of which ends with a newline. -/
def parse (text : Text) : Option (List Family) := do
  if text.getLast? = some 10 ∨ text = [] then
    let lines ← (lines text).mapM parseLine
    let families ← lines.foldlM put []
    some families.reverse
  else none

structure Metric where
  name : Text
  help : Text
  kind : Kind
  value : Text

namespace Metric

def family (m : Metric) : Family := ⟨m.name, some m.help, some m.kind, some m.value⟩

def texts (m : Metric) : List Text :=
  [[35, 32] ++ helpWord ++ 32 :: m.name ++ 32 :: m.help, [35, 32] ++ typeWord ++ 32 :: m.name ++ 32 :: m.kind.text,
    m.name ++ 32 :: m.value]

def text (m : Metric) : Text := m.texts.flatMap fun line => line ++ [10]

/-- The help is printed as it is. -/
structure Valid (m : Metric) : Prop where
  name : IsName m.name
  help : ∀ c ∈ m.help, c ≠ 92 ∧ c ≠ 10
  starts : ∀ c ∈ m.help.head?, isBlank c = false
  value : IsNumber m.value

end Metric

theorem skipBlanks_eq {s : Text} (h : ∀ c ∈ s.head?, isBlank c = false) : skipBlanks s = s := by
  cases s with
  | nil => rfl
  | cons c s => rw [skipBlanks, List.dropWhile_cons_of_neg (by simp [h c rfl])]

theorem word_blank (s : Text) : word (32 :: s) = word s := rfl

theorem word_append {t rest : Text} (hNonempty : t ≠ []) (hWord : ∀ c ∈ t, isBlank c = false)
    (hRest : ∀ c ∈ rest.head?, isBlank c = false) : word (t ++ 32 :: rest) = (t, rest) := by
  obtain ⟨c, t, rfl⟩ := List.exists_cons_of_ne_nil hNonempty
  have hStart : skipBlanks (c :: t ++ 32 :: rest) = c :: t ++ 32 :: rest :=
    skipBlanks_eq fun d hd => hWord d (by simp [Option.some.inj hd])
  have hPlain : ∀ d ∈ c :: t, (!isBlank d) = true := fun d hd => by rw [hWord d hd]; rfl
  have hBehind : skipBlanks (32 :: rest) = skipBlanks rest := List.dropWhile_cons_of_pos rfl
  rw [word, hStart, List.takeWhile_append_of_pos hPlain, List.dropWhile_append_of_pos hPlain,
    List.takeWhile_cons_of_neg (by decide), List.dropWhile_cons_of_neg (by decide), List.append_nil, hBehind,
    skipBlanks_eq hRest]

theorem word_end {t : Text} (hWord : ∀ c ∈ t, isBlank c = false) : word t = (t, []) := by
  have hPlain : ∀ d ∈ t, (!isBlank d) = true := fun d hd => by rw [hWord d hd]; rfl
  rw [word, skipBlanks_eq fun c hc => hWord c (List.mem_of_mem_head? hc), List.takeWhile_eq_self_iff.mpr hPlain,
    List.dropWhile_eq_nil_iff.mpr hPlain]
  rfl

theorem unescapeHelp_plain {t : Text} (h : ∀ c ∈ t, c ≠ 92 ∧ c ≠ 10) : unescapeHelp t = some t := by
  induction t with
  | nil => rfl
  | cons c t ih =>
    obtain ⟨⟨hBackslash, -⟩, hRest⟩ := List.forall_mem_cons.mp h
    cases t with
    | nil => rw [unescapeHelp, if_neg hBackslash]
    | cons e t => rw [unescapeHelp, if_neg hBackslash, ih hRest, Option.map_some]

theorem ofText?_text (k : Kind) : Kind.ofText? k.text = some k := by
  cases k <;> decide

theorem isBlank_kind (k : Kind) : ∀ c ∈ k.text.head?, isBlank c = false := by
  cases k <;> simp [Kind.text, isBlank]

theorem isBlank_eq_false {c : UInt8} (hSpace : c ≠ 32) (hTab : c ≠ 9) : isBlank c = false := by
  simp [isBlank, hSpace, hTab]

theorem isBlank_name {t : Text} (h : IsName t) : ∀ c ∈ t, isBlank c = false := by
  intro c hc
  have hByte := h.2.2 c hc
  refine isBlank_eq_false ?_ ?_
  · rintro rfl
    exact absurd hByte (by decide)
  · rintro rfl
    exact absurd hByte (by decide)

theorem isBlank_value {t : Text} (h : IsNumber t) : ∀ c ∈ t, isBlank c = false := by
  intro c hc
  have hByte := le_of_mem_number h c hc
  refine isBlank_eq_false ?_ ?_
  · rintro rfl
    exact absurd hByte (by decide)
  · rintro rfl
    exact absurd hByte (by decide)

theorem isValue_number {t : Text} (h : IsNumber t) : isValue t = true := by
  have hEnds : Ends [] := fun c hc => by cases hc
  have hParse := parseNumber_append h hEnds
  rw [List.append_nil] at hParse
  rw [isValue, decide_eq_true hParse, Bool.true_or]

namespace Metric

variable {m : Metric}

theorem head_name (h : m.Valid) (rest : Text) : ∀ c ∈ (m.name ++ rest).head?, isBlank c = false := by
  obtain ⟨c, name, hName⟩ := List.exists_cons_of_ne_nil h.name.1
  intro d hd
  rw [hName] at hd
  exact isBlank_name h.name d (hName ▸ List.mem_cons.mpr (Or.inl (Option.some.inj hd).symm))

theorem parse_comment (h : m.Valid) {keyword rest : Text} (hKeyword : keyword ≠ [])
    (hPlain : ∀ c ∈ keyword, isBlank c = false) (hRest : ∀ c ∈ rest.head?, isBlank c = false) :
    parseLine ([35, 32] ++ keyword ++ 32 :: m.name ++ 32 :: rest) =
      if keyword = helpWord then (unescapeHelp rest).map (Line.help m.name)
      else if keyword = typeWord then (Kind.ofText? rest).map (Line.kind m.name)
      else some .comment := by
  have hComment : parseLine ([35, 32] ++ keyword ++ 32 :: m.name ++ 32 :: rest) =
      parseComment (32 :: (keyword ++ 32 :: (m.name ++ 32 :: rest))) := by
    rw [List.append_assoc, List.append_assoc]
    rfl
  rw [hComment, parseComment, word_blank, word_append hKeyword hPlain (head_name h _)]
  dsimp only
  rw [word_append h.name.1 (isBlank_name h.name) hRest, if_pos h.name, if_pos h.name]

theorem parse_help (h : m.Valid) :
    parseLine ([35, 32] ++ helpWord ++ 32 :: m.name ++ 32 :: m.help) = some (.help m.name m.help) := by
  rw [parse_comment h (by decide) (by simp [helpWord, isBlank]) h.starts, if_pos rfl, unescapeHelp_plain h.help,
    Option.map_some]

theorem parse_kind (h : m.Valid) :
    parseLine ([35, 32] ++ typeWord ++ 32 :: m.name ++ 32 :: m.kind.text) = some (.kind m.name m.kind) := by
  rw [parse_comment h (by decide) (by simp [typeWord, isBlank]) (isBlank_kind m.kind), if_neg (by decide), if_pos rfl,
    ofText?_text, Option.map_some]

theorem parse_sample (h : m.Valid) : parseLine (m.name ++ 32 :: m.value) = some (.sample m.name m.value) := by
  obtain ⟨c, name, hName⟩ := List.exists_cons_of_ne_nil h.name.1
  have hStart : skipBlanks (m.name ++ 32 :: m.value) = c :: (name ++ 32 :: m.value) := by
    rw [skipBlanks_eq (head_name h _), hName, List.cons_append]
  have hLetter : c ≠ 35 := by
    rintro rfl
    exact absurd (h.name.2.1 35 (by rw [hName]; rfl)) (by decide)
  have hWord : word (c :: (name ++ 32 :: m.value)) = (m.name, m.value) := by
    rw [← List.cons_append, ← hName]
    refine word_append h.name.1 (isBlank_name h.name) fun d hd => ?_
    exact isBlank_value h.value d (List.mem_of_mem_head? hd)
  rw [parseLine, hStart]
  dsimp only
  rw [if_neg hLetter, hWord]
  dsimp only
  rw [word_end (isBlank_value h.value)]
  exact if_pos ⟨h.name, isValue_number h.value, rfl⟩

theorem newline_notMem (h : m.Valid) : ∀ line ∈ m.texts, (10 : UInt8) ∉ line := by
  have hName : (10 : UInt8) ∉ m.name := fun hMem => absurd (h.name.2.2 10 hMem) (by decide)
  have hHelp : (10 : UInt8) ∉ m.help := fun hMem => (h.help 10 hMem).2 rfl
  have hKind : (10 : UInt8) ∉ m.kind.text := by
    cases m.kind <;> simp [Kind.text]
  have hValue : (10 : UInt8) ∉ m.value := fun hMem => absurd (le_of_mem_number h.value 10 hMem) (by decide)
  simp [texts, helpWord, typeWord, hName, hHelp, hKind, hValue]

def parsed (m : Metric) : List Line := [.help m.name m.help, .kind m.name m.kind, .sample m.name m.value]

theorem parse_texts (h : m.Valid) : m.texts.mapM parseLine = some m.parsed := by
  simp only [texts, List.mapM_cons, List.mapM_nil, parse_help h, parse_kind h, parse_sample h, parsed]
  rfl

/-- The lines of a new metric open its family and fill it. -/
theorem put_parsed (m : Metric) {families : List Family} (hNew : m.name ∉ families.map Family.name) :
    m.parsed.foldlM put families = some (m.family :: families) := by
  have hCurrent : current m.name families = some (⟨m.name, none, none, none⟩, families) := by
    cases families with
    | nil => rfl
    | cons f families =>
      obtain ⟨hFirst, hRest⟩ := not_or.mp (mt List.mem_cons.mpr hNew)
      have hOthers : ¬ (families.any fun g => g.name = m.name) = true := by
        intro hAny
        obtain ⟨g, hg, hSame⟩ := List.any_eq_true.mp hAny
        exact hRest (List.mem_map.mpr ⟨g, hg, of_decide_eq_true hSame⟩)
      rw [current, if_neg fun hSame => hFirst hSame.symm, if_neg hOthers]
  have hHelp : put families (.help m.name m.help) = some (⟨m.name, some m.help, none, none⟩ :: families) := by
    rw [put, hCurrent]
    rfl
  have hKind : put (⟨m.name, some m.help, none, none⟩ :: families) (.kind m.name m.kind) =
      some (⟨m.name, some m.help, some m.kind, none⟩ :: families) := by
    rw [put, current, if_pos rfl]
    rfl
  have hValue : put (⟨m.name, some m.help, some m.kind, none⟩ :: families) (.sample m.name m.value) =
      some (m.family :: families) := by
    rw [put, current, if_pos rfl]
    rfl
  rw [parsed, List.foldlM_cons, hHelp, Option.bind_eq_bind, Option.bind_some, List.foldlM_cons, hKind,
    Option.bind_eq_bind, Option.bind_some, List.foldlM_cons, hValue]
  rfl

/-- Metrics whose names are all new. -/
theorem put_metrics {metrics : List Metric} (hDistinct : (metrics.map Metric.name).Nodup) {families : List Family}
    (hNew : ∀ m ∈ metrics, m.name ∉ families.map Family.name) :
    (metrics.flatMap Metric.parsed).foldlM put families = some ((metrics.map family).reverse ++ families) := by
  induction metrics generalizing families with
  | nil => rfl
  | cons m metrics ih =>
    obtain ⟨hFirst, hRest⟩ := List.nodup_cons.mp hDistinct
    obtain ⟨hOwn, hOthers⟩ := List.forall_mem_cons.mp hNew
    have hBehind : ∀ n ∈ metrics, n.name ∉ (m.family :: families).map Family.name := by
      intro n hn hMem
      rcases List.mem_cons.mp hMem with hSame | hMem
      · exact hFirst (List.mem_map.mpr ⟨n, hn, hSame⟩)
      · exact hOthers n hn hMem
    rw [List.flatMap_cons, List.foldlM_append, m.put_parsed hOwn, Option.bind_eq_bind, Option.bind_some,
      ih hRest hBehind, List.map_cons, List.reverse_cons, List.append_assoc, List.singleton_append]

theorem parse_all {metrics : List Metric} (hValid : ∀ m ∈ metrics, m.Valid) :
    (metrics.flatMap Metric.texts).mapM parseLine = some (metrics.flatMap Metric.parsed) := by
  induction metrics with
  | nil => rfl
  | cons m metrics ih =>
    obtain ⟨hFirst, hRest⟩ := List.forall_mem_cons.mp hValid
    rw [List.flatMap_cons, List.mapM_append, parse_texts hFirst, ih hRest, List.flatMap_cons]
    rfl

end Metric

/-- A text of metrics with different names is read as these metrics. -/
theorem parse_metrics {metrics : List Metric} (hValid : ∀ m ∈ metrics, m.Valid)
    (hDistinct : (metrics.map Metric.name).Nodup) :
    parse (metrics.flatMap Metric.text) = some (metrics.map Metric.family) := by
  have hText : metrics.flatMap Metric.text = (metrics.flatMap Metric.texts).flatMap fun line => line ++ [10] := by
    rw [List.flatMap_assoc]
    rfl
  have hLines : lines (metrics.flatMap Metric.text) = metrics.flatMap Metric.texts := by
    rw [hText]
    refine lines_flatMap fun line hLine => ?_
    obtain ⟨m, hm, hLine⟩ := List.mem_flatMap.mp hLine
    exact Metric.newline_notMem (hValid m hm) line hLine
  have hEnd : (metrics.flatMap Metric.text).getLast? = some 10 ∨ metrics.flatMap Metric.text = [] := by
    rw [hText]
    rcases List.eq_nil_or_concat (metrics.flatMap Metric.texts) with hNil | ⟨front, line, hFront⟩
    · exact Or.inr (by rw [hNil]; rfl)
    · exact Or.inl (by simp [hFront])
  rw [parse, if_pos hEnd, hLines, Metric.parse_all hValid, Option.bind_eq_bind, Option.bind_some,
    Metric.put_metrics hDistinct fun _ _ => List.not_mem_nil, Option.bind_eq_bind, Option.bind_some]
  simp

end HttpMonitoring.Library.Exposition
