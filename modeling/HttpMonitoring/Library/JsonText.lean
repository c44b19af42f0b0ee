import Mathlib

/-!
# JSON values and their compact text

Trees of values, the text of a tree without white space, and the conditions
on numbers, strings and keys under which this text is JSON. Bytes from 0x80
on are plain string content.
-/

namespace HttpMonitoring.Library.JsonText

abbrev Text := List UInt8

inductive Value
  | number (digits : Text)
  | string (body : Text)
  | bool (b : Bool)
  | array (elements : List Value)
  | object (members : List (Text × Value))

def comma : UInt8 := 44

def quoted (body : Text) : Text := 34 :: (body ++ [34])

def boolText (b : Bool) : Text := if b then [116, 114, 117, 101] else [102, 97, 108, 115, 101]

/-- The texts with a comma between any two neighbours. -/
def commaSep : List Text → Text
  | [] => []
  | [t] => t
  | t :: u :: rest => t ++ comma :: commaSep (u :: rest)

mutual

def Value.text : Value → Text
  | .number digits => digits
  | .string body => quoted body
  | .bool b => boolText b
  | .array elements => 91 :: (elementsText elements ++ [93])
  | .object members => 123 :: (membersText members ++ [125])

def elementsText : List Value → Text
  | [] => []
  | [v] => v.text
  | v :: u :: rest => v.text ++ comma :: elementsText (u :: rest)

def membersText : List (Text × Value) → Text
  | [] => []
  | [(k, v)] => quoted k ++ 58 :: v.text
  | (k, v) :: m :: rest => quoted k ++ 58 :: (v.text ++ comma :: membersText (m :: rest))

end

def IsDigit (c : UInt8) : Prop := 48 ≤ c ∧ c ≤ 57

def IsHexDigit (c : UInt8) : Prop := IsDigit c ∨ (65 ≤ c ∧ c ≤ 70) ∨ (97 ≤ c ∧ c ≤ 102)

def IsDigits (t : Text) : Prop := t ≠ [] ∧ ∀ c ∈ t, IsDigit c

/-- No leading zeros, except for zero itself. -/
def IsInteger (t : Text) : Prop := IsDigits t ∧ (t.head? = some 48 → t = [48])

def IsFraction (t : Text) : Prop := t = [] ∨ ∃ digits, IsDigits digits ∧ t = 46 :: digits

def IsExponent (t : Text) : Prop :=
  t = [] ∨ ∃ e sign digits, (e = 101 ∨ e = 69) ∧ (sign = [] ∨ sign = [43] ∨ sign = [45]) ∧
    IsDigits digits ∧ t = e :: (sign ++ digits)

def IsNumber (t : Text) : Prop :=
  ∃ sign integer fraction exponent, (sign = [] ∨ sign = [45]) ∧ IsInteger integer ∧
    IsFraction fraction ∧ IsExponent exponent ∧ t = sign ++ integer ++ fraction ++ exponent

/-- What may stand between the quotes of a string. -/
inductive IsBody : Text → Prop
  | nil : IsBody []
  | plain {c : UInt8} {rest : Text} (hc : 32 ≤ c ∧ c ≠ 34 ∧ c ≠ 92) (h : IsBody rest) :
      IsBody (c :: rest)
  | escape {c : UInt8} {rest : Text} (hc : c ∈ [34, 92, 47, 98, 102, 110, 114, 116])
      (h : IsBody rest) : IsBody (92 :: c :: rest)
  | unicode {a b c d : UInt8} {rest : Text}
      (hDigits : IsHexDigit a ∧ IsHexDigit b ∧ IsHexDigit c ∧ IsHexDigit d) (h : IsBody rest) :
      IsBody (92 :: 117 :: a :: b :: c :: d :: rest)

inductive WellFormed : Value → Prop
  | number {digits : Text} (h : IsNumber digits) : WellFormed (.number digits)
  | string {body : Text} (h : IsBody body) : WellFormed (.string body)
  | bool (b : Bool) : WellFormed (.bool b)
  | array {elements : List Value} (h : ∀ v ∈ elements, WellFormed v) : WellFormed (.array elements)
  | object {members : List (Text × Value)} (hKeys : ∀ m ∈ members, IsBody m.1)
      (hValues : ∀ m ∈ members, WellFormed m.2) (hDistinct : (members.map Prod.fst).Nodup) :
      WellFormed (.object members)

def Value.at : Value → List Text → Option Value
  | v, [] => some v
  | .object members, k :: path => ((members.find? fun m => m.1 == k).map Prod.snd).bind fun v =>
      v.at path
  | _, _ :: _ => none

def HasArray (v : Value) (path : List Text) (n : Nat) : Prop :=
  ∃ elements, v.at path = some (.array elements) ∧ elements.length = n

def record (keys : List Text) (values : List Value) : Value := .object (keys.zip values)

@[simp] theorem commaSep_nil : commaSep [] = [] := rfl

@[simp] theorem commaSep_singleton (t : Text) : commaSep [t] = t := rfl

@[simp] theorem commaSep_cons_cons (t u : Text) (rest : List Text) :
    commaSep (t :: u :: rest) = t ++ comma :: commaSep (u :: rest) := rfl

theorem commaSep_cons (t : Text) (rest : List Text) :
    commaSep (t :: rest) = t ++ rest.flatMap fun u => comma :: u := by
  induction rest generalizing t with
  | nil => simp [commaSep]
  | cons u rest ih => rw [commaSep, ih, List.flatMap_cons, List.cons_append]

theorem commaSep_append {s : List Text} (hs : s ≠ []) (t : List Text) :
    commaSep (s ++ t) = commaSep s ++ t.flatMap fun u => comma :: u := by
  obtain ⟨u, s, rfl⟩ := List.exists_cons_of_ne_nil hs
  rw [List.cons_append, commaSep_cons, commaSep_cons, List.flatMap_append, List.append_assoc]

theorem elementsText_eq (elements : List Value) :
    elementsText elements = commaSep (elements.map Value.text) := by
  induction elements with
  | nil => simp [elementsText]
  | cons v elements ih =>
    cases elements with
    | nil => simp [elementsText]
    | cons u rest =>
      rw [elementsText, ih]
      rfl

def memberText (m : Text × Value) : Text := quoted m.1 ++ 58 :: m.2.text

theorem membersText_eq (members : List (Text × Value)) :
    membersText members = commaSep (members.map memberText) := by
  induction members with
  | nil => simp [membersText]
  | cons m members ih =>
    obtain ⟨k, v⟩ := m
    cases members with
    | nil => simp [membersText, memberText]
    | cons u rest =>
      rw [membersText, ih]
      simp [memberText]

@[simp] theorem text_number (digits : Text) : (Value.number digits).text = digits := by
  rw [Value.text]

@[simp] theorem text_string (body : Text) : (Value.string body).text = quoted body := by
  rw [Value.text]

@[simp] theorem text_bool (b : Bool) : (Value.bool b).text = boolText b := by
  rw [Value.text]

@[simp] theorem text_array (elements : List Value) :
    (Value.array elements).text = 91 :: (commaSep (elements.map Value.text) ++ [93]) := by
  rw [Value.text, elementsText_eq]

@[simp] theorem text_object (members : List (Text × Value)) :
    (Value.object members).text = 123 :: (commaSep (members.map memberText) ++ [125]) := by
  rw [Value.text, membersText_eq]

theorem IsBody.append {s t : Text} (hs : IsBody s) (ht : IsBody t) : IsBody (s ++ t) := by
  induction hs with
  | nil => exact ht
  | plain hc _ ih => exact .plain hc ih
  | escape hc _ ih => exact .escape hc ih
  | unicode hDigits _ ih => exact .unicode hDigits ih

theorem isBody_flatMap {s : Text} {f : UInt8 → Text} (h : ∀ c ∈ s, IsBody (f c)) :
    IsBody (s.flatMap f) := by
  induction s with
  | nil => exact .nil
  | cons c s ih =>
    rw [List.flatMap_cons]
    exact (h c List.mem_cons_self).append (ih fun d hd => h d (List.mem_cons_of_mem _ hd))

theorem isBody_of_plain {s : Text} (h : ∀ c ∈ s, 32 ≤ c ∧ c ≠ 34 ∧ c ≠ 92) : IsBody s := by
  induction s with
  | nil => exact .nil
  | cons c s ih =>
    exact .plain (h c List.mem_cons_self) (ih fun d hd => h d (List.mem_cons_of_mem _ hd))

theorem zip_keys_sublist (keys : List Text) (values : List Value) :
    ((keys.zip values).map Prod.fst).Sublist keys := by
  induction keys generalizing values with
  | nil => exact List.Sublist.slnil
  | cons k keys ih =>
    cases values with
    | nil => exact List.nil_sublist _
    | cons v values => exact (ih values).cons_cons k

theorem WellFormed.record {keys : List Text} {values : List Value} (hDistinct : keys.Nodup)
    (hPlain : ∀ k ∈ keys, ∀ c ∈ k, 32 ≤ c ∧ c ≠ 34 ∧ c ≠ 92)
    (hValues : ∀ v ∈ values, WellFormed v) : WellFormed (record keys values) := by
  refine .object ?_ ?_ (hDistinct.sublist (zip_keys_sublist keys values))
  · rintro ⟨k, v⟩ hm
    exact isBody_of_plain (hPlain k (List.of_mem_zip hm).1)
  · rintro ⟨k, v⟩ hm
    exact hValues v (List.of_mem_zip hm).2

theorem find_member {members : List (Text × Value)} {k : Text} {v : Value}
    (hDistinct : (members.map Prod.fst).Nodup) (hMember : (k, v) ∈ members) :
    members.find? (fun m => m.1 == k) = some (k, v) := by
  induction members with
  | nil => cases hMember
  | cons m members ih =>
    rw [List.map_cons, List.nodup_cons] at hDistinct
    rcases List.mem_cons.mp hMember with rfl | hMember
    · simp
    · have hOther : m.1 ≠ k := fun h => hDistinct.1 (h ▸ List.mem_map_of_mem hMember)
      simpa [hOther] using ih hDistinct.2 hMember

theorem HasArray.member {members : List (Text × Value)} {k : Text} {v : Value} {path : List Text}
    {n : Nat} (hDistinct : (members.map Prod.fst).Nodup) (hMember : (k, v) ∈ members)
    (h : HasArray v path n) : HasArray (.object members) (k :: path) n := by
  obtain ⟨elements, hAt, hLength⟩ := h
  refine ⟨elements, ?_, hLength⟩
  rw [Value.at, find_member hDistinct hMember]
  exact hAt

theorem IsNumber.length_pos {t : Text} (h : IsNumber t) : 0 < t.length := by
  obtain ⟨sign, integer, fraction, exponent, -, ⟨⟨hNonempty, -⟩, -⟩, -, -, rfl⟩ := h
  have hPositive := List.length_pos_iff.mpr hNonempty
  simp only [List.length_append]
  omega

theorem commaSep_length_le {texts : List Text} {size : Nat} (h : ∀ t ∈ texts, t.length ≤ size) :
    (commaSep texts).length ≤ texts.length * (size + 1) := by
  induction texts with
  | nil => simp
  | cons t texts ih =>
    have hHead := h t List.mem_cons_self
    have hTail := ih fun u hu => h u (List.mem_cons_of_mem _ hu)
    cases texts with
    | nil =>
      simp only [commaSep_singleton, List.length_singleton]
      omega
    | cons u texts =>
      simp only [commaSep_cons_cons, List.length_append, List.length_cons] at *
      rw [Nat.succ_mul]
      omega

theorem commaSep_length_ge {texts : List Text} {size : Nat}
    (h : ∀ t ∈ texts, size ≤ t.length) :
    texts.length * (size + 1) ≤ (commaSep texts).length + 1 := by
  induction texts with
  | nil => simp
  | cons t texts ih =>
    have hHead := h t List.mem_cons_self
    have hTail := ih fun u hu => h u (List.mem_cons_of_mem _ hu)
    cases texts with
    | nil =>
      simp only [commaSep_singleton, List.length_singleton]
      omega
    | cons u texts =>
      simp only [commaSep_cons_cons, List.length_append, List.length_cons] at *
      rw [Nat.succ_mul]
      omega

end HttpMonitoring.Library.JsonText
