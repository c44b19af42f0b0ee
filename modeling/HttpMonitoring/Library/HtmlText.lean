import Mathlib

/-!
# Text between tags

What an HTML parser makes of the units of an element whose content is data:
newlines are normalized, null characters are dropped, character references are
replaced, and a less-than sign may begin markup.
-/

namespace HttpMonitoring.Library.HtmlText

abbrev Units := List UInt16

/-- The units of an ASCII text. -/
def units (text : String) : Units := text.toList.map fun c => UInt16.ofNat c.toNat

def isDigit (c : UInt16) : Bool := 48 ≤ c && c ≤ 57

def isLetter (c : UInt16) : Bool := (65 ≤ c && c ≤ 90) || (97 ≤ c && c ≤ 122)

/-- What the name of a character reference consists of. -/
def isNameUnit (c : UInt16) : Bool := isLetter c || isDigit c || c == 59

/-- What a less-than sign stands for: itself, nothing together with the two
units behind it, or the beginning of a tag or a comment. -/
inductive Opening
  | text
  | nothing
  | markup
deriving DecidableEq

/-- The tag open state and the end tag open state. -/
def afterLess : Units → Opening
  | [] => .text
  | d :: rest =>
    if isLetter d || d = 33 || d = 63 then .markup
    else if d ≠ 47 then .text
    else
      match rest with
      | [] => .text
      | e :: _ => if e = 62 then .nothing else .markup

/-- A letter, an exclamation mark, a slash or a question mark. -/
def OpensMarkup : Units → Prop
  | [] => False
  | d :: _ => isLetter d ∨ d = 33 ∨ d = 47 ∨ d = 63

theorem afterLess_append_iff (s z : Units) : afterLess (s ++ 60 :: z) = .text ↔ ¬ OpensMarkup s := by
  cases s with
  | nil => exact iff_of_true rfl id
  | cons d t =>
    obtain ⟨e, rest, hRest⟩ : ∃ e rest, t ++ 60 :: z = e :: rest := by
      cases t with
      | nil => exact ⟨60, z, rfl⟩
      | cons e t => exact ⟨e, t ++ 60 :: z, rfl⟩
    rw [List.cons_append, hRest, OpensMarkup, afterLess]
    by_cases hSlash : d = 47
    · subst hSlash
      refine iff_of_false ?_ (not_not_intro (Or.inr (Or.inr (Or.inl rfl))))
      rw [if_neg (by decide), if_neg (by decide)]
      split <;> exact Opening.noConfusion
    · by_cases hMarkup : isLetter d || d = 33 || d = 63
      · rw [if_pos hMarkup]
        refine iff_of_false Opening.noConfusion (not_not_intro ?_)
        simp only [Bool.or_eq_true, decide_eq_true_eq] at hMarkup
        tauto
      · rw [if_neg hMarkup, if_pos hSlash]
        refine iff_of_true rfl ?_
        simp only [Bool.or_eq_true, decide_eq_true_eq] at hMarkup
        tauto

def StartsEndTag (after : Units) : Prop := ∃ d z, isLetter d ∧ after = 60 :: 47 :: d :: z

/-- The named character references: names without the ampersand, with the
semicolon where it is part of the name, and the units they stand for. -/
structure References where
  table : List (Units × Units)
  plain : ∀ e ∈ table, e.1.all isNameUnit
  long : ∀ e ∈ table, 2 ≤ e.1.length
  short : ∀ e ∈ table, e.2.length ≤ 2

def digit (base : Nat) (c : UInt16) : Option Nat :=
  if isDigit c then some (c.toNat - 48)
  else if base = 16 ∧ 65 ≤ c ∧ c ≤ 70 then some (c.toNat - 55)
  else if base = 16 ∧ 97 ≤ c ∧ c ≤ 102 then some (c.toNat - 87)
  else none

def numeral (base : Nat) (digits : Units) : Nat :=
  digits.foldl (fun n c => n * base + (digit base c).getD 0) 0

/-- The code points that numbers between 128 and 159 stand for. -/
def controls : List (Nat × Nat) :=
  [(0x80, 0x20AC), (0x82, 0x201A), (0x83, 0x0192), (0x84, 0x201E), (0x85, 0x2026), (0x86, 0x2020),
    (0x87, 0x2021), (0x88, 0x02C6), (0x89, 0x2030), (0x8A, 0x0160), (0x8B, 0x2039), (0x8C, 0x0152),
    (0x8E, 0x017D), (0x91, 0x2018), (0x92, 0x2019), (0x93, 0x201C), (0x94, 0x201D), (0x95, 0x2022),
    (0x96, 0x2013), (0x97, 0x2014), (0x98, 0x02DC), (0x99, 0x2122), (0x9A, 0x0161), (0x9B, 0x203A),
    (0x9C, 0x0153), (0x9E, 0x017E), (0x9F, 0x0178)]

def codePoint (n : Nat) : Nat :=
  if n = 0 ∨ 0x10FFFF < n ∨ (0xD800 ≤ n ∧ n ≤ 0xDFFF) then 0xFFFD else (controls.lookup n).getD n

def utf16 (n : Nat) : Units :=
  if n < 0x10000 then [UInt16.ofNat n]
  else [UInt16.ofNat (0xD800 + (n - 0x10000) / 0x400), UInt16.ofNat (0xDC00 + (n - 0x10000) % 0x400)]

def radix (rest : Units) : Nat × Nat :=
  if rest.head? = some 120 ∨ rest.head? = some 88 then (16, 1) else (10, 0)

/-- What stands for the units behind the number sign, and how many they are. -/
def numericReference (rest : Units) : Option (Units × Nat) :=
  let (base, lead) := radix rest
  let digits := (rest.drop lead).takeWhile fun c => (digit base c).isSome
  if digits = [] then none
  else
    let semicolon := if (rest.drop (lead + digits.length)).head? = some 59 then 1 else 0
    some (utf16 (codePoint (numeral base digits)), lead + digits.length + semicolon)

namespace References

variable (refs : References)

/-- The longest name at the start. -/
def namedReference (rest : Units) : Option (Units × Nat) :=
  ((refs.table.filter fun e => e.1 <+: rest).argmax fun e => e.1.length).map fun e => (e.2, e.1.length)

/-- What stands for the units behind an ampersand, and how many they are. -/
def reference (rest : Units) : Option (Units × Nat) :=
  if rest.head? = some 35 then
    (numericReference rest.tail).map fun r => (r.1, r.2 + 1)
  else refs.namedReference rest

inductive Opens : Units → Prop
  | name (e : Units × Units) : e ∈ refs.table → Opens e.1
  | decimal (d : UInt16) : (digit 10 d).isSome → Opens [35, d]
  | hexadecimal (x d : UInt16) : x = 120 ∨ x = 88 → (digit 16 d).isSome → Opens [35, x, d]

def Starts (rest : Units) : Prop := ∃ p, refs.Opens p ∧ p <+: rest

end References

theorem length_utf16_le (n : Nat) : (utf16 n).length ≤ 2 := by
  rw [utf16]
  split
  · exact Nat.le_succ 1
  · exact le_rfl

theorem numericReference_bounds {rest text : Units} {n : Nat}
    (h : numericReference rest = some (text, n)) : text.length ≤ 2 ∧ 1 ≤ n ∧ n ≤ rest.length := by
  rw [numericReference] at h
  generalize radix rest = r at h
  obtain ⟨base, lead⟩ := r
  dsimp only at h
  generalize hDigits : (rest.drop lead).takeWhile (fun c => (digit base c).isSome) = digits at h
  have hTaken : digits.length ≤ rest.length - lead := by
    rw [← hDigits, ← List.length_drop]
    exact (List.takeWhile_prefix _).length_le
  split at h
  · exact absurd h (by simp)
  · rename_i hSome
    obtain ⟨rfl, rfl⟩ := Prod.mk.inj (Option.some.inj h)
    have hPos : 1 ≤ digits.length := List.length_pos_iff.mpr hSome
    refine ⟨length_utf16_le _, by omega, ?_⟩
    split
    · rename_i hSemicolon
      have hBehind : 0 < (rest.drop (lead + digits.length)).length :=
        List.length_pos_of_mem (List.mem_of_mem_head? hSemicolon)
      rw [List.length_drop] at hBehind
      omega
    · omega

theorem prefix_of_prefix_append {p s z : Units} {c : UInt16} (hp : c ∉ p) (h : p <+: s ++ c :: z) :
    p <+: s := by
  have hConcat : s ++ [c] <+: s ++ c :: z := ⟨z, List.append_cons s c z ▸ rfl⟩
  rcases List.prefix_or_prefix_of_prefix h hConcat with hs | hs
  · rcases List.prefix_concat_iff.mp hs with rfl | hs
    · exact absurd (List.mem_append_right s (List.mem_singleton_self c)) hp
    · exact hs
  · exact absurd (hs.subset (List.mem_append_right s (List.mem_singleton_self c))) hp

theorem leading_eq_nil_iff {α : Type*} (p : α → Bool) (s : List α) :
    s.takeWhile p = [] ↔ ∀ c, p c → ¬ [c] <+: s := by
  cases s with
  | nil => simp
  | cons d t =>
    simp only [List.takeWhile_cons, List.cons_prefix_cons, List.nil_prefix, and_true]
    constructor
    · rintro hNone c hc rfl
      rw [if_pos hc] at hNone
      exact List.cons_ne_nil _ _ hNone
    · intro h
      rw [if_neg fun hd => h d hd rfl]

theorem numericReference_eq_none_iff (rest : Units) :
    numericReference rest = none ↔
      (∀ d, (digit 10 d).isSome → ¬ [d] <+: rest) ∧
      ∀ x d, x = 120 ∨ x = 88 → (digit 16 d).isSome → ¬ [x, d] <+: rest := by
  have hNone : numericReference rest = none ↔
      (rest.drop (radix rest).2).takeWhile (fun c => (digit (radix rest).1 c).isSome) = [] := by
    rw [numericReference]
    dsimp only
    split
    · rename_i h
      exact iff_of_true rfl h
    · rename_i h
      exact iff_of_false (Option.some_ne_none _) h
  rw [hNone, leading_eq_nil_iff, radix]
  cases rest with
  | nil => simp
  | cons x t =>
    by_cases hHex : x = 120 ∨ x = 88
    · have hLetter : ¬ (digit 10 x).isSome := by
        rcases hHex with rfl | rfl <;> decide
      rw [if_pos (by simpa using hHex)]
      simp only [List.drop_succ_cons, List.drop_zero]
      constructor
      · intro h
        refine ⟨fun d hd hPrefix => ?_, fun y d _ hd hPrefix => ?_⟩
        · exact hLetter ((List.cons_prefix_cons.mp hPrefix).1 ▸ hd)
        · exact h d hd (List.cons_prefix_cons.mp hPrefix).2
      · intro h d hd hPrefix
        exact h.2 x d hHex hd (List.cons_prefix_cons.mpr ⟨rfl, hPrefix⟩)
    · rw [if_neg (by simpa using hHex)]
      simp only [List.drop_zero]
      constructor
      · intro h
        refine ⟨h, fun y d hy _ hPrefix => ?_⟩
        exact hHex ((List.cons_prefix_cons.mp hPrefix).1 ▸ hy)
      · exact And.left

namespace References

variable {refs : References}

theorem reference_bounds {rest text : Units} {n : Nat} (h : refs.reference rest = some (text, n)) :
    text.length ≤ 2 ∧ 2 ≤ n ∧ n ≤ rest.length := by
  rw [reference] at h
  split at h
  · rename_i hSign
    obtain ⟨⟨text', n'⟩, hNumber, hSame⟩ := Option.map_eq_some_iff.mp h
    obtain ⟨rfl, rfl⟩ := Prod.mk.inj hSame
    obtain ⟨hText, hPos, hLe⟩ := numericReference_bounds hNumber
    have hLength : 0 < rest.length := List.length_pos_of_mem (List.mem_of_mem_head? hSign)
    rw [List.length_tail] at hLe
    exact ⟨hText, by omega, by omega⟩
  · rw [namedReference] at h
    obtain ⟨e, hLongest, hSame⟩ := Option.map_eq_some_iff.mp h
    obtain ⟨rfl, rfl⟩ := Prod.mk.inj hSame
    obtain ⟨hMem, hPrefix⟩ := List.mem_filter.mp (List.argmax_mem (Option.mem_def.mpr hLongest))
    exact ⟨refs.short e hMem, refs.long e hMem, (of_decide_eq_true hPrefix).length_le⟩

theorem notMem_name {e : Units × Units} (he : e ∈ refs.table) {c : UInt16} (hc : ¬ isNameUnit c) :
    c ∉ e.1 :=
  fun h => hc (List.all_eq_true.mp (refs.plain e he) c h)

theorem starts_iff (rest : Units) :
    refs.Starts rest ↔ (∃ e ∈ refs.table, e.1 <+: rest) ∨
      (∃ d, (digit 10 d).isSome ∧ [35, d] <+: rest) ∨
      ∃ x d, (x = 120 ∨ x = 88) ∧ (digit 16 d).isSome ∧ [35, x, d] <+: rest := by
  constructor
  · rintro ⟨p, hOpens, hPrefix⟩
    cases hOpens with
    | name e he => exact Or.inl ⟨e, he, hPrefix⟩
    | decimal d hd => exact Or.inr (Or.inl ⟨d, hd, hPrefix⟩)
    | hexadecimal x d hx hd => exact Or.inr (Or.inr ⟨x, d, hx, hd, hPrefix⟩)
  · rintro (⟨e, he, hPrefix⟩ | ⟨d, hd, hPrefix⟩ | ⟨x, d, hx, hd, hPrefix⟩)
    · exact ⟨e.1, Opens.name e he, hPrefix⟩
    · exact ⟨[35, d], Opens.decimal d hd, hPrefix⟩
    · exact ⟨[35, x, d], Opens.hexadecimal x d hx hd, hPrefix⟩

theorem not_name_prefix_sign {e : Units × Units} (he : e ∈ refs.table) (t : Units) :
    ¬ e.1 <+: 35 :: t := by
  intro hPrefix
  have hSign : (35 : UInt16) ∉ e.1 := notMem_name he (by decide)
  have hLong := refs.long e he
  cases hName : e.1 with
  | nil => simp [hName] at hLong
  | cons c name =>
    rw [hName] at hPrefix hSign
    exact hSign ((List.cons_prefix_cons.mp hPrefix).1 ▸ List.mem_cons_self)

/-- A reference is recognized exactly where one begins. -/
theorem reference_eq_none_iff (rest : Units) : refs.reference rest = none ↔ ¬ refs.Starts rest := by
  rw [starts_iff, reference]
  split
  · rename_i hSign
    obtain ⟨t, rfl⟩ : ∃ t, rest = 35 :: t := List.head?_eq_some_iff.mp hSign
    rw [Option.map_eq_none_iff, List.tail_cons, numericReference_eq_none_iff]
    have hNames : ¬ ∃ e ∈ refs.table, e.1 <+: 35 :: t :=
      fun ⟨e, he, hPrefix⟩ => not_name_prefix_sign he t hPrefix
    simp only [hNames, false_or, List.prefix_cons_inj, not_or, not_exists, not_and]
  · rename_i hSign
    have hNone : ∀ p : Units, ¬ 35 :: p <+: rest := fun p hPrefix => by
      cases rest with
      | nil => exact absurd hPrefix (by simp)
      | cons c t => exact hSign (congrArg some (List.cons_prefix_cons.mp hPrefix).1.symm)
    rw [namedReference, Option.map_eq_none_iff, List.argmax_eq_none, List.filter_eq_nil_iff]
    simp [hNone]

theorem less_notMem_of_opens {p : Units} (h : refs.Opens p) : (60 : UInt16) ∉ p := by
  cases h with
  | name e he => exact notMem_name he (by decide)
  | decimal d hd =>
    have hDigit : d ≠ 60 := fun hd' => absurd (hd' ▸ hd) (by decide)
    simp [hDigit.symm]
  | hexadecimal x d hx hd =>
    have hDigit : d ≠ 60 := fun hd' => absurd (hd' ▸ hd) (by decide)
    rcases hx with rfl | rfl <;> simp [hDigit.symm]

/-- What follows a less-than sign plays no part in a reference in front of it. -/
theorem starts_append_iff (s z : Units) : refs.Starts (s ++ 60 :: z) ↔ refs.Starts s := by
  constructor
  · rintro ⟨p, hOpens, hPrefix⟩
    exact ⟨p, hOpens, prefix_of_prefix_append (less_notMem_of_opens hOpens) hPrefix⟩
  · rintro ⟨p, hOpens, hPrefix⟩
    exact ⟨p, hOpens, hPrefix.trans (List.prefix_append s _)⟩

end References

namespace References

variable (refs : References)

/-- The characters up to the first tag or comment, and what is left from there;
`skip` units at the start belong to a construct that is over. -/
def characters : Nat → Units → Units × Units
  | _, [] => ([], [])
  | skip + 1, _ :: rest => characters skip rest
  | 0, c :: rest =>
    if c = 60 then
      match afterLess rest with
      | .text => Prod.map (c :: ·) id (characters 0 rest)
      | .nothing => characters 2 rest
      | .markup => ([], c :: rest)
    else if c = 38 then
      match refs.reference rest with
      | some (text, consumed) => Prod.map (text ++ ·) id (characters consumed rest)
      | none => Prod.map (c :: ·) id (characters 0 rest)
    else Prod.map (c :: ·) id (characters 0 rest)

theorem length_le_of_cases {text left input : Units}
    (h : text ++ left = input ∨ text.length + left.length < input.length) :
    text.length + left.length ≤ input.length := by
  rcases h with h | h
  · rw [← List.length_append, h]
  · exact h.le

/-- Whatever is not a character of its own makes the text shorter. -/
theorem characters_cases (skip : Nat) (input : Units) :
    (refs.characters skip input).1 ++ (refs.characters skip input).2 = input.drop skip ∨
    (refs.characters skip input).1.length + (refs.characters skip input).2.length <
      (input.drop skip).length := by
  induction input generalizing skip with
  | nil =>
    refine Or.inl ?_
    rw [characters, List.drop_nil, List.append_nil]
  | cons c rest ih =>
    have hPlain : (c :: (refs.characters 0 rest).1) ++ (refs.characters 0 rest).2 = c :: rest ∨
        (c :: (refs.characters 0 rest).1).length + (refs.characters 0 rest).2.length <
          (c :: rest).length := by
      refine (ih 0).imp (fun h => ?_) fun h => ?_
      · rw [List.cons_append, h, List.drop_zero]
      · rw [List.drop_zero] at h
        rw [List.length_cons, List.length_cons]
        omega
    have hLess : ∀ n, (refs.characters n rest).1.length + (refs.characters n rest).2.length ≤
        rest.length - n := fun n => by
      rw [← List.length_drop]
      exact length_le_of_cases (ih n)
    cases skip with
    | succ skip =>
      rw [characters, List.drop_succ_cons]
      exact ih skip
    | zero =>
      rw [List.drop_zero, characters]
      split
      · split
        · exact hPlain
        · have hSkipped := hLess 2
          exact Or.inr (by rw [List.length_cons]; omega)
        · exact Or.inl rfl
      · split
        · split
          · rename_i text consumed hReference
            obtain ⟨hText, hMin, hMax⟩ := reference_bounds hReference
            have hRest := hLess consumed
            refine Or.inr ?_
            rw [Prod.map_fst, Prod.map_snd, id, List.length_append, List.length_cons]
            omega
          · exact hPlain
        · exact hPlain

theorem length_characters_le (skip : Nat) (input : Units) :
    (refs.characters skip input).1.length + (refs.characters skip input).2.length ≤
      input.length - skip := by
  rw [← List.length_drop]
  exact length_le_of_cases (refs.characters_cases skip input)

theorem characters_endTag {after : Units} (hAfter : StartsEndTag after) :
    refs.characters 0 after = ([], after) := by
  obtain ⟨d, z, hd, rfl⟩ := hAfter
  have hNot : d ≠ 62 := fun h => absurd (h ▸ hd) (by decide)
  have hMarkup : afterLess (47 :: d :: z) = .markup := by
    rw [afterLess, if_neg (by decide), if_neg (by decide), if_neg hNot]
  rw [characters, if_pos rfl, hMarkup]

/-- No unit begins markup or a reference. -/
structure Quiet (s : Units) : Prop where
  less : ∀ t, 60 :: t <:+ s → ¬ OpensMarkup t
  ampersand : ∀ t, 38 :: t <:+ s → ¬ refs.Starts t

variable {refs}

theorem forall_suffix_cons_iff {a c : UInt16} {s : Units} {P : Units → Prop} :
    (∀ t, a :: t <:+ c :: s → P t) ↔ (c = a → P s) ∧ ∀ t, a :: t <:+ s → P t := by
  constructor
  · intro h
    refine ⟨?_, fun t ht => h t (ht.trans (List.suffix_cons c s))⟩
    rintro rfl
    exact h s List.suffix_rfl
  · rintro ⟨hFirst, hRest⟩ t ht
    rcases List.suffix_cons_iff.mp ht with hSame | ht
    · obtain ⟨rfl, rfl⟩ := List.cons.inj hSame
      exact hFirst rfl
    · exact hRest t ht

theorem quiet_cons_iff (c : UInt16) (s : Units) : refs.Quiet (c :: s) ↔
    (c = 60 → ¬ OpensMarkup s) ∧ (c = 38 → ¬ refs.Starts s) ∧ refs.Quiet s := by
  constructor
  · intro h
    obtain ⟨hLess, hLess'⟩ := forall_suffix_cons_iff.mp h.less
    obtain ⟨hAmpersand, hAmpersand'⟩ := forall_suffix_cons_iff.mp h.ampersand
    exact ⟨hLess, hAmpersand, hLess', hAmpersand'⟩
  · rintro ⟨hLess, hAmpersand, h⟩
    constructor
    · exact forall_suffix_cons_iff.mpr ⟨hLess, h.less⟩
    · exact forall_suffix_cons_iff.mpr ⟨hAmpersand, h.ampersand⟩

/-- In front of an end tag exactly the quiet units are all characters. -/
theorem characters_append_iff {after : Units} (hAfter : StartsEndTag after) (s : Units) :
    refs.characters 0 (s ++ after) = (s, after) ↔ refs.Quiet s := by
  have hEnd := refs.characters_endTag hAfter
  obtain ⟨d, z, -, rfl⟩ := hAfter
  generalize hTag : (47 : UInt16) :: d :: z = tag at hEnd ⊢
  induction s with
  | nil =>
    refine iff_of_true hEnd ⟨fun t ht => ?_, fun t ht => ?_⟩
    · exact absurd (List.suffix_nil.mp ht) (List.cons_ne_nil 60 t)
    · exact absurd (List.suffix_nil.mp ht) (List.cons_ne_nil 38 t)
  | cons c s ih =>
    have hPlain : Prod.map (c :: ·) id (refs.characters 0 (s ++ 60 :: tag)) = (c :: s, 60 :: tag) ↔
        refs.Quiet s := by
      refine Iff.trans ?_ ih
      rw [Prod.ext_iff, Prod.ext_iff]
      exact and_congr_left fun _ => List.cons_inj_right c
    have hLength := fun n => refs.length_characters_le n (s ++ 60 :: tag)
    simp only [List.length_append] at hLength
    rw [quiet_cons_iff, ← afterLess_append_iff s tag, ← refs.starts_append_iff s tag,
      ← reference_eq_none_iff, List.cons_append, characters]
    by_cases hLess : c = 60
    · rw [if_pos hLess]
      have hAmpersand : c ≠ 38 := fun h => absurd (hLess.symm.trans h) (by decide)
      cases hNext : afterLess (s ++ 60 :: tag) with
      | text => simpa [hAmpersand] using hPlain
      | nothing =>
        refine iff_of_false (fun hSame => ?_) fun h => Opening.noConfusion (h.1 hLess)
        have hShort := hLength 2
        have hFirst := congrArg List.length (Prod.mk.inj hSame).1
        have hLeft := congrArg List.length (Prod.mk.inj hSame).2
        rw [List.length_cons] at hFirst
        omega
      | markup =>
        refine iff_of_false (fun hSame => ?_) fun h => Opening.noConfusion (h.1 hLess)
        exact List.cons_ne_nil c s (Prod.mk.inj hSame).1.symm
    · rw [if_neg hLess]
      by_cases hAmpersand : c = 38
      · rw [if_pos hAmpersand]
        cases hReference : refs.reference (s ++ 60 :: tag) with
        | none => simpa [hLess] using hPlain
        | some r =>
          refine iff_of_false (fun hSame => ?_) fun h => Option.some_ne_none r (h.2.1 hAmpersand)
          obtain ⟨hText, hMin, hMax⟩ := reference_bounds hReference
          have hRest := hLength r.2
          have hFirst := congrArg List.length (Prod.mk.inj hSame).1
          have hLeft := congrArg List.length (Prod.mk.inj hSame).2
          rw [List.length_append] at hMax
          rw [List.length_append, List.length_cons] at hFirst
          rw [id] at hLeft
          omega
      · rw [if_neg hAmpersand]
        simpa [hLess, hAmpersand] using hPlain

end References

/-- The input stream: a carriage return becomes a line feed, together with a
line feed behind it. -/
def normalize : Bool → Units → Units
  | _, [] => []
  | carriage, c :: rest =>
    if c = 13 then 10 :: normalize true rest
    else if carriage ∧ c = 10 then normalize false rest
    else c :: normalize false rest

theorem length_normalize_le (carriage : Bool) (s : Units) :
    (normalize carriage s).length ≤ s.length := by
  induction s generalizing carriage with
  | nil => exact le_rfl
  | cons c s ih =>
    rw [normalize]
    split
    · exact Nat.succ_le_succ (ih true)
    · split
      · exact (ih false).trans (Nat.le_succ _)
      · exact Nat.succ_le_succ (ih false)

theorem carriage_notMem_normalize (carriage : Bool) (s : Units) : 13 ∉ normalize carriage s := by
  induction s generalizing carriage with
  | nil => exact List.not_mem_nil
  | cons c s ih =>
    rw [normalize]
    split
    · exact List.not_mem_cons_of_ne_of_not_mem (by decide) (ih true)
    · rename_i hc
      split
      · exact ih false
      · exact List.not_mem_cons_of_ne_of_not_mem (Ne.symm hc) (ih false)

theorem normalize_eq_self {s : Units} (h : 13 ∉ s) : normalize false s = s := by
  induction s with
  | nil => rfl
  | cons c s ih =>
    obtain ⟨hc, hs⟩ := List.ne_and_not_mem_of_not_mem_cons h
    rw [normalize, if_neg (Ne.symm hc), if_neg (by simp), ih hs]

theorem normalize_cons {c : UInt16} (hReturn : c ≠ 13) (hFeed : c ≠ 10) (carriage : Bool) (s : Units) :
    normalize carriage (c :: s) = c :: normalize false s := by
  rw [normalize, if_neg hReturn, if_neg fun h => hFeed h.2]

theorem normalize_append (carriage : Bool) (s z : Units) :
    normalize carriage (s ++ 60 :: z) = normalize carriage s ++ normalize false (60 :: z) := by
  induction s generalizing carriage with
  | nil =>
    rw [List.nil_append, normalize_cons (by decide) (by decide),
      normalize_cons (by decide) (by decide), normalize, List.nil_append]
  | cons c s ih =>
    rw [List.cons_append, normalize, normalize]
    split
    · rw [ih, List.cons_append]
    · split
      · exact ih false
      · rw [ih, List.cons_append]

theorem startsEndTag_normalize {after : Units} (h : StartsEndTag after) :
    StartsEndTag (normalize false after) := by
  obtain ⟨d, z, hd, rfl⟩ := h
  have hReturn : d ≠ 13 := fun h => absurd (h ▸ hd) (by decide)
  have hFeed : d ≠ 10 := fun h => absurd (h ▸ hd) (by decide)
  refine ⟨d, normalize false z, hd, ?_⟩
  rw [normalize_cons (by decide) (by decide), normalize_cons (by decide) (by decide),
    normalize_cons hReturn hFeed]

/-- The text nodes that hold a text. -/
def textNodes (text : Units) : List Units := if text = [] then [] else [text]

theorem textNodes_inj {s t : Units} : textNodes s = textNodes t ↔ s = t := by
  unfold textNodes
  by_cases hs : s = [] <;> by_cases ht : t = [] <;> simp [hs, ht, eq_comm]

namespace References

variable (refs : References)

/-- The text nodes of an element with the given markup as its content; nothing
if something in the markup is read as a tag or a comment. -/
def content (markup after : Units) : Option (List Units) :=
  let (text, left) := refs.characters 0 (normalize false (markup ++ after))
  if left = normalize false after then some (textNodes (text.filter (· ≠ 0))) else none

/-- Units that stand for themselves as the content of an element. -/
structure Inert (s : Units) : Prop extends refs.Quiet s where
  null : 0 ∉ s
  carriage : 13 ∉ s

variable {refs}

theorem content_eq_some_iff (markup after : Units) (text : Units) :
    refs.content markup after = some (textNodes text) ↔
      (refs.characters 0 (normalize false (markup ++ after))).2 = normalize false after ∧
      (refs.characters 0 (normalize false (markup ++ after))).1.filter (· ≠ 0) = text := by
  rw [content]
  dsimp only
  split
  · rename_i h
    rw [Option.some_inj, textNodes_inj, and_iff_right h]
  · rename_i h
    exact iff_of_false (fun hSome => Option.some_ne_none _ hSome.symm) fun hBoth => h hBoth.1

/-- Units inserted as markup in front of an end tag become the text node they
spell exactly if they are inert. -/
theorem content_eq_iff {after : Units} (hAfter : StartsEndTag after) (s : Units) :
    refs.content s after = some (textNodes s) ↔ refs.Inert s := by
  have hEnd := startsEndTag_normalize hAfter
  have hAppend : normalize false (s ++ after) = normalize false s ++ normalize false after := by
    obtain ⟨d, z, -, rfl⟩ := hAfter
    exact normalize_append false s (47 :: d :: z)
  rw [content_eq_some_iff, hAppend]
  constructor
  · rintro ⟨hLeft, hText⟩
    have hCases := refs.characters_cases 0 (normalize false s ++ normalize false after)
    generalize hOut : refs.characters 0 (normalize false s ++ normalize false after) = out
      at hLeft hText hCases
    rw [List.drop_zero, hLeft, List.append_left_inj, List.length_append] at hCases
    have hShorter := length_normalize_le false s
    have hFilter := List.length_filter_le (· ≠ 0) out.1
    rw [hText] at hFilter
    have hSame : out.1 = normalize false s := hCases.resolve_right (by omega)
    have hKept : ∀ c ∈ out.1, decide (c ≠ 0) = true :=
      List.length_filter_eq_length_iff.mp (by rw [hText]; rw [hSame] at hFilter ⊢; omega)
    have hSelf : out.1 = s := (List.filter_eq_self.mpr hKept).symm.trans hText
    have hNormal : normalize false s = s := hSame.symm.trans hSelf
    rw [hNormal] at hOut
    refine ⟨(characters_append_iff hEnd s).mp (hOut.trans (Prod.ext hSelf hLeft)), ?_, ?_⟩
    · intro hNull
      exact absurd rfl (of_decide_eq_true (hKept 0 (hSelf.symm ▸ hNull)))
    · exact hNormal ▸ carriage_notMem_normalize false s
  · intro h
    rw [normalize_eq_self h.carriage, (characters_append_iff hEnd s).mpr h.toQuiet]
    exact ⟨rfl, List.filter_eq_self.mpr fun c hc => by
      simpa using fun h0 : c = 0 => h.null (h0 ▸ hc)⟩

end References

/-- Three of the characters with names. -/
def basicReferences : References where
  table := [(units "amp;", units "&"), (units "amp", units "&"), (units "lt;", units "<"),
    (units "lt", units "<"), (units "gt;", units ">"), (units "gt", units ">")]
  plain := by decide
  long := by decide
  short := by decide

example : basicReferences.content (units "b=1&c<1") (units "</td>") =
    some [units "b=1&c<1"] := by decide

example : basicReferences.content (units "a&lt;b&#x26;c") (units "</td>") =
    some [units "a<b&c"] := by decide

end HttpMonitoring.Library.HtmlText
