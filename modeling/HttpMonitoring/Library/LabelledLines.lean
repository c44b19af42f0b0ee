import HttpMonitoring.Library.Scanf

/-!
# Texts of labelled numbers

Each line of such a text may have a label and a number. A reader tries one
format for each label and stores the number of the first that fits.
-/

namespace HttpMonitoring.Library.LabelledLines

open JsonText Decimal Scanf

variable {ι σ ρ : Type*}

section Reading

variable (all : List ι) (format : ι → List Directive)

def readLabelled (line : Text) : Option (ι × Nat) :=
  all.findSome? fun i =>
    match scanNumbers (format i) line with
    | [value] => some (i, value)
    | _ => none

theorem readLabelled_own {line : Text} {i : ι} {n : Nat} (hMem : i ∈ all) (hOwn : scanNumbers (format i) line = [n])
    (hOther : ∀ j, j ≠ i → scanNumbers (format j) line = []) : readLabelled all format line = some (i, n) := by
  induction all with
  | nil => cases hMem
  | cons j all ih =>
    rw [readLabelled, List.findSome?_cons]
    by_cases h : j = i
    · rw [h, hOwn]
    · rw [hOther j h]
      exact ih ((List.mem_cons.mp hMem).resolve_left (Ne.symm h))

/-- The numbers of a text are stored one after the other. -/
def storeLines (store : ι → Nat → σ → σ) (text : Text) (s : σ) : σ :=
  ((lines text).filterMap (readLabelled all format)).foldl (fun s p => store p.1 p.2 s) s

end Reading

/-- The last number of a label. -/
def lastOf [DecidableEq ι] (i : ι) (pairs : List (ι × Nat)) : Option Nat :=
  (pairs.filterMap fun p => if p.1 = i then some p.2 else none).getLast?

theorem lastOf_append_singleton [DecidableEq ι] (i : ι) (pairs : List (ι × Nat)) (p : ι × Nat) :
    lastOf i (pairs ++ [p]) = if p.1 = i then some p.2 else lastOf i pairs := by
  rw [lastOf, List.filterMap_append]
  by_cases h : p.1 = i
  · simp [h]
  · simp [h, lastOf]

/-- What is stored for a label is its last number, or what was there before. -/
theorem get_storeLines [DecidableEq ι] {all : List ι} {format : ι → List Directive} {store : ι → Nat → σ → σ}
    {get : ι → σ → ρ} {value : ι → Nat → ρ} (hSame : ∀ i n s, get i (store i n s) = value i n)
    (hOther : ∀ i j n s, j ≠ i → get j (store i n s) = get j s) (text : Text) (s : σ) (i : ι) :
    get i (storeLines all format store text s) =
      ((lastOf i ((lines text).filterMap (readLabelled all format))).map (value i)).getD (get i s) := by
  rw [storeLines]
  generalize (lines text).filterMap (readLabelled all format) = pairs
  induction pairs using List.reverseRecOn with
  | nil => rfl
  | append_singleton pairs p ih =>
    rw [List.foldl_append, List.foldl_cons, List.foldl_nil, lastOf_append_singleton]
    by_cases h : p.1 = i
    · rw [if_pos h, ← h, hSame, Option.map_some, Option.getD_some]
    · rw [if_neg h, hOther p.1 i _ _ (Ne.symm h), ih]

theorem lines_flatMap {texts : List Text} (h : ∀ line ∈ texts, (10 : UInt8) ∉ line) :
    lines (texts.flatMap fun line => line ++ [10]) = texts := by
  induction texts with
  | nil => rfl
  | cons line texts ih =>
    obtain ⟨hLine, hRest⟩ := List.forall_mem_cons.mp h
    rw [List.flatMap_cons, List.append_assoc, List.singleton_append, lines_append hLine, ih hRest]

/-- Directives that assign nothing. -/
def Silent (format : List Directive) : Prop := ∀ d ∈ format, d = .white ∨ ∃ byte, d = .literal byte

theorem scan_silent {format : List Directive} (h : Silent format) (s : Text) : scan format s = [] := by
  induction format generalizing s with
  | nil => rw [scan]
  | cons d format ih =>
    obtain ⟨hFirst, hRest⟩ := List.forall_mem_cons.mp h
    rcases hFirst with rfl | ⟨byte, rfl⟩
    · rw [scan]
      exact ih hRest _
    · cases s with
      | nil => rw [scan]
      | cons c s =>
        rw [scan]
        split
        · exact ih hRest s
        · rfl

theorem silent_literals (s : Text) : Silent (literals s) := by
  intro d hd
  obtain ⟨byte, -, rfl⟩ := List.mem_map.mp hd
  exact Or.inr ⟨byte, rfl⟩

theorem scanNumbers_labelled {label blanks rest : Text} {n : Nat} {unit : List Directive} (hUnit : Silent unit)
    (hBlanks : ∀ c ∈ blanks, isSpace c = true) (hn : n < 2 ^ 64) (hRest : ∀ c ∈ rest.head?, isDigit c = false) :
    scanNumbers (literals label ++ (.white :: .unsigned true :: unit)) (label ++ (blanks ++ natText n ++ rest)) =
      [n] := by
  rw [scanNumbers, scan_literals, scan_white_unsigned, scan, numberPrefix_natText hBlanks hn hRest]
  dsimp only
  rw [if_pos rfl, scan_silent hUnit]
  rfl

/-- A line with a labelled number, or one that no format fits. -/
inductive Line (ι : Type*)
  | figure (i : ι) (blanks : Text) (value : Nat) (rest : Text)
  | other (text : Text)

namespace Line

def text (label : ι → Text) : Line ι → Text
  | figure i blanks value rest => label i ++ (blanks ++ natText value ++ rest)
  | other text => text

def pair? : Line ι → Option (ι × Nat)
  | figure i _ value _ => some (i, value)
  | other _ => none

def Valid (all : List ι) (format : ι → List Directive) : Line ι → Prop
  | figure _ blanks value rest => (∀ c ∈ blanks, isSpace c = true ∧ c ≠ 10) ∧ value < 2 ^ 64 ∧
      (∀ c ∈ rest.head?, isDigit c = false) ∧ (10 : UInt8) ∉ rest
  | other text => (10 : UInt8) ∉ text ∧ readLabelled all format text = none

instance [DecidableEq ι] (all : List ι) (format : ι → List Directive) : DecidablePred (Valid all format)
  | figure _ _ _ _ => inferInstanceAs (Decidable (_ ∧ _ ∧ _ ∧ _))
  | other _ => inferInstanceAs (Decidable (_ ∧ _))

theorem newline_notMem_text {all : List ι} {format : ι → List Directive} {label : ι → Text}
    (hLabel : ∀ i, (10 : UInt8) ∉ label i) {l : Line ι} (h : l.Valid all format) : (10 : UInt8) ∉ l.text label := by
  cases l with
  | figure i blanks value rest =>
    obtain ⟨hBlanks, -, -, hRest⟩ := h
    have hNumber : (10 : UInt8) ∉ natText value := fun hMem =>
      absurd (isDigit_of_mem_natText hMem).1 (by decide)
    have hNoBlank : (10 : UInt8) ∉ blanks := fun hMem => (hBlanks 10 hMem).2 rfl
    simp [text, hLabel i, hNoBlank, hNumber, hRest]
  | other text => exact h.1

end Line

/-- The numbers of a printed text are those that were printed. -/
theorem filterMap_readLabelled {all : List ι} {format : ι → List Directive} {label : ι → Text}
    (hLabel : ∀ i, (10 : UInt8) ∉ label i)
    (hRead : ∀ i blanks value rest, (Line.figure i blanks value rest).Valid all format →
      readLabelled all format ((Line.figure i blanks value rest).text label) = some (i, value))
    {printed : List (Line ι)} (hValid : ∀ l ∈ printed, l.Valid all format) :
    (lines ((printed.map (Line.text label)).flatMap fun line => line ++ [10])).filterMap (readLabelled all format) =
      printed.filterMap Line.pair? := by
  have hLines : ∀ line ∈ printed.map (Line.text label), (10 : UInt8) ∉ line := by
    intro line hLine
    obtain ⟨l, hl, rfl⟩ := List.mem_map.mp hLine
    exact Line.newline_notMem_text hLabel (hValid l hl)
  rw [lines_flatMap hLines, List.filterMap_map]
  refine List.filterMap_congr fun l hl => ?_
  cases l with
  | figure i blanks value rest => exact hRead i blanks value rest (hValid _ hl)
  | other text => exact (hValid _ hl).2

/-- A printed row, or a line that the reader cannot make anything of. -/
inductive Row (α : Type*) (parse : Text → Option ρ)
  | shown (a : α)
  | other (text : Text) (unread : parse text = none) (oneLine : (10 : UInt8) ∉ text)

namespace Row

variable {α : Type*} {parse : Text → Option ρ}

def text (print : α → Text) : Row α parse → Text
  | shown a => print a
  | other text _ _ => text

def shown? : Row α parse → Option α
  | shown a => some a
  | other _ _ _ => none

/-- What is read of a printed text are its rows. -/
theorem filterMap_text {print : α → Text} {reading : α → ρ} (hLine : ∀ a, (10 : UInt8) ∉ print a)
    (hRead : ∀ a, parse (print a) = some (reading a)) (rows : List (Row α parse)) :
    (lines ((rows.map (text print)).flatMap fun line => line ++ [10])).filterMap parse =
      (rows.filterMap shown?).map reading := by
  have hLines : ∀ line ∈ rows.map (text print), (10 : UInt8) ∉ line := by
    intro line hMem
    obtain ⟨r, -, rfl⟩ := List.mem_map.mp hMem
    cases r with
    | shown a => exact hLine a
    | other text _ oneLine => exact oneLine
  rw [lines_flatMap hLines, List.filterMap_map, List.map_filterMap]
  refine List.filterMap_congr fun r _ => ?_
  cases r with
  | shown a => exact hRead a
  | other text unread _ => exact unread

end Row

end HttpMonitoring.Library.LabelledLines
