import HttpMonitoring.Collectors

/-!
# Lines of the mount table

The kernel escapes the separators of the mount table. The tokenizer cuts a line
at its separators, and the copy of a field decodes the escapes.
-/

namespace HttpMonitoring.MountLines

open Collectors Library.CString Library.OctalEscape

def Mangled (c : UInt8) : Prop := c = 32 ∨ c = 9 ∨ c = 10 ∨ c = 92

instance : DecidablePred Mangled := fun _ => inferInstanceAs (Decidable (_ ∨ _))

def mangle (s : Bytes) : Bytes := escape Mangled s

def mountLine (source mount type options : Bytes) : Bytes :=
  mangle source ++ 32 :: (mangle mount ++ 32 :: (mangle type ++ 32 :: (options ++ [10])))

structure IsField (field : Bytes) : Prop where
  nonempty : field ≠ []
  plain : ∀ c ∈ field, endsField c = false

theorem isField_mangle {s : Bytes} (hs : s ≠ []) (hZero : (0 : UInt8) ∉ s) : IsField (mangle s) := by
  refine ⟨escape_ne_nil Mangled hs, fun c hc => ?_⟩
  have hGone : ∀ b ∈ ([0, 10, 32, 9] : Bytes), c ≠ b := by
    intro b hb hSame
    refine notMem_escape Mangled (b := b) (s := s) ?_ ?_ ?_ (hSame ▸ hc)
    · intro hMem
      rcases List.mem_cons.mp hb with rfl | hb
      · exact absurd hMem hZero
      · revert hb
        simp only [List.mem_cons, List.not_mem_nil, or_false, Mangled]
        rintro (rfl | rfl | rfl) <;> decide
    · rintro rfl
      exact absurd hb (by decide)
    · revert hb
      simp only [List.mem_cons, List.not_mem_nil, or_false]
      rintro (rfl | rfl | rfl | rfl) <;> decide
  have hSplit : c ≠ 0 ∧ c ≠ 10 ∧ c ≠ 32 ∧ c ≠ 9 := by simpa using hGone
  simp [endsField, isBlank, hSplit]

theorem takeWhile_field {field rest : Bytes} {P : UInt8 → Bool} {c : UInt8} (hField : ∀ b ∈ field, P b = true)
    (hc : P c = false) : (field ++ c :: rest).takeWhile P = field := by
  rw [List.takeWhile_append_of_pos hField, List.takeWhile_cons, hc]
  simp

/-- The next field starts at the cursor, and the space behind it becomes its
terminator. -/
theorem nextMountField_field (before : Bytes) {field : Bytes} (hField : IsField field) (rest : Bytes) :
    nextMountField ⟨before ++ (field ++ 32 :: rest), before.length⟩ = (some before.length,
      ⟨before ++ (field ++ 0 :: rest), before.length + field.length + 1⟩) := by
  obtain ⟨hNonempty, hPlain⟩ := hField
  obtain ⟨c, field, rfl⟩ := List.exists_cons_of_ne_nil hNonempty
  obtain ⟨hFirst, -⟩ := List.forall_mem_cons.mp hPlain
  simp only [endsField, isBlank, Bool.or_eq_false_iff, beq_eq_false_iff_ne] at hFirst
  obtain ⟨⟨hZero, hNewline⟩, hSpace, hTab⟩ := hFirst
  have hBlank : isBlank c = false := by simp [isBlank, hSpace, hTab]
  have hStart : MountCursor.skip ⟨before ++ (c :: field ++ 32 :: rest), before.length⟩ isBlank before.length =
      before.length := by
    rw [MountCursor.skip, List.drop_left, List.cons_append, List.takeWhile_cons, hBlank]
    rfl
  have hHead : MountCursor.byte ⟨before ++ (c :: field ++ 32 :: rest), before.length⟩ before.length = c := by
    rw [MountCursor.byte, getD_of_append]
    rfl
  have hStop : MountCursor.skip ⟨before ++ (c :: field ++ 32 :: rest), before.length⟩
      (fun b => !endsField b) before.length = before.length + (c :: field).length := by
    have hTake : (c :: field ++ 32 :: rest).takeWhile (fun b => !endsField b) = c :: field := by
      refine takeWhile_field (fun b hb => ?_) rfl
      rw [hPlain b hb]
      rfl
    rw [MountCursor.skip, List.drop_left, hTake]
  have hSpaceThere : MountCursor.byte ⟨before ++ (c :: field ++ 32 :: rest), before.length⟩
      (before.length + (c :: field).length) = 32 := by
    rw [MountCursor.byte, ← List.append_assoc, ← List.length_append, getD_of_append]
    rfl
  have hSet : (before ++ (c :: field ++ 32 :: rest)).set (before.length + (c :: field).length) 0 =
      before ++ (c :: field ++ 0 :: rest) := by
    rw [← List.append_assoc, ← List.length_append, List.set_append_right _ _ le_rfl, Nat.sub_self,
      List.set_cons_zero, List.append_assoc]
  have hBytes : ¬ (c = 0 ∨ c = 10) := not_or.mpr ⟨hZero, hNewline⟩
  have hSome : (32 : UInt8) ≠ 0 := by decide
  simp only [nextMountField, hStart, hHead, if_neg hBytes, hStop, hSpaceThere, if_pos hSome, hSet]

theorem three_fields {source mount type : Bytes} (hSource : IsField source) (hMount : IsField mount)
    (hType : IsField type) (rest : Bytes) :
    let line := source ++ 32 :: (mount ++ 32 :: (type ++ 32 :: rest))
    let first := nextMountField ⟨line, 0⟩
    let second := nextMountField first.2
    let third := nextMountField second.2
    first.1 = some 0 ∧ second.1 = some (source.length + 1) ∧
      third.1 = some (source.length + 1 + mount.length + 1) ∧
      third.2.line = source ++ 0 :: (mount ++ 0 :: (type ++ 0 :: rest)) := by
  have hFirst : nextMountField ⟨source ++ 32 :: (mount ++ 32 :: (type ++ 32 :: rest)), 0⟩ =
      (some 0, ⟨source ++ 0 :: (mount ++ 32 :: (type ++ 32 :: rest)), source.length + 1⟩) := by
    have hField := nextMountField_field [] hSource (mount ++ 32 :: (type ++ 32 :: rest))
    simpa using hField
  have hSecond : nextMountField ⟨source ++ 0 :: (mount ++ 32 :: (type ++ 32 :: rest)), source.length + 1⟩ =
      (some (source.length + 1), ⟨source ++ 0 :: (mount ++ 0 :: (type ++ 32 :: rest)),
        source.length + 1 + mount.length + 1⟩) := by
    have hField := nextMountField_field (source ++ [0]) hMount (type ++ 32 :: rest)
    simpa using hField
  have hThird : nextMountField ⟨source ++ 0 :: (mount ++ 0 :: (type ++ 32 :: rest)),
        source.length + 1 + mount.length + 1⟩ =
      (some (source.length + 1 + mount.length + 1), ⟨source ++ 0 :: (mount ++ 0 :: (type ++ 0 :: rest)),
        source.length + 1 + mount.length + 1 + type.length + 1⟩) := by
    have hField := nextMountField_field (source ++ 0 :: (mount ++ [0])) hType rest
    have hLength : (source ++ 0 :: (mount ++ [0])).length = source.length + 1 + mount.length + 1 := by
      simp
      omega
    rw [hLength] at hField
    simpa using hField
  simp only [hFirst, hSecond, hThird, true_and]

theorem copyBytes_mangle {s : Bytes} (hZero : (0 : UInt8) ∉ s) {room : Nat} (hRoom : s.length ≤ room)
    (rest : Bytes) : copyBytes room (mangle s ++ 0 :: rest) = s := by
  induction s generalizing room with
  | nil =>
    cases room with
    | zero => rfl
    | succ room => simp [copyBytes, mangle]
  | cons c s ih =>
    obtain ⟨hc, hs⟩ := not_or.mp (mt List.mem_cons.mpr hZero)
    cases room with
    | zero => exact absurd hRoom (by simp)
    | succ room =>
      have hNext := ih hs (Nat.le_of_succ_le_succ hRoom)
      rw [mangle] at hNext ⊢
      rw [escape_cons, copyBytes]
      by_cases hSpecial : Mangled c
      · -- the four bytes of an escape
        obtain ⟨hHigh, hMiddle, hLow⟩ := escapeByte_digits c
        rw [if_pos hSpecial]
        simp only [escapeByte, List.cons_append, List.nil_append, List.getD_cons_zero, List.getD_cons_succ,
          isOctal_octalDigit hHigh, isOctal_octalDigit hMiddle, isOctal_octalDigit hLow,
          octalValue_escapeByte, List.drop_succ_cons, List.drop_zero, hNext]
        simp
      · have hBackslash : c ≠ 92 := fun hSame => hSpecial (Or.inr (Or.inr (Or.inr hSame)))
        rw [if_neg hSpecial]
        simp only [List.cons_append, List.nil_append, List.getD_cons_zero, List.tail_cons, hNext]
        rw [if_neg fun hSame => hc hSame.symm, if_neg fun h => hBackslash h.1]

theorem copyMountField_mangle {s : Bytes} (hZero : (0 : UInt8) ∉ s) {size : Nat} (hSize : s.length < size)
    (rest : Bytes) : copyMountField size (mangle s ++ 0 :: rest) = s ++ [0] := by
  rw [copyMountField, if_neg (by omega), copyBytes_mangle hZero (by omega)]

structure Named (s : Bytes) : Prop where
  nonempty : s ≠ []
  terminated : (0 : UInt8) ∉ s

/-- Whatever follows the three fields, they are decoded. -/
theorem mountFields_mangled {source mount type : Bytes} (hSource : Named source) (hMount : Named mount)
    (hType : Named type) (hMountFits : mount.length < 4096) (hTypeFits : type.length < nameLen)
    (rest : Bytes) :
    mountFields (mangle source ++ 32 :: (mangle mount ++ 32 :: (mangle type ++ 32 :: rest))) =
      some (mount ++ [0], type ++ [0]) := by
  obtain ⟨hFirst, hSecond, hThird, hLine⟩ := three_fields
    (isField_mangle hSource.nonempty hSource.terminated) (isField_mangle hMount.nonempty hMount.terminated)
    (isField_mangle hType.nonempty hType.terminated) (rest ++ [0])
  have hBuffer : mangle source ++ 32 :: (mangle mount ++ 32 :: (mangle type ++ 32 :: rest)) ++ [0] =
      mangle source ++ 32 :: (mangle mount ++ 32 :: (mangle type ++ 32 :: (rest ++ [0]))) := by
    simp
  have hMountAt : (mangle source ++ 0 :: (mangle mount ++ 0 :: (mangle type ++ 0 :: (rest ++ [0])))).drop
      ((mangle source).length + 1) = mangle mount ++ 0 :: (mangle type ++ 0 :: (rest ++ [0])) := by
    rw [List.drop_append]
    simp
  have hTypeAt : (mangle source ++ 0 :: (mangle mount ++ 0 :: (mangle type ++ 0 :: (rest ++ [0])))).drop
      ((mangle source).length + 1 + (mangle mount).length + 1) = mangle type ++ 0 :: (rest ++ [0]) := by
    rw [Nat.add_assoc, ← List.drop_drop, hMountAt, List.drop_append]
    simp
  rw [mountFields, hBuffer]
  simp only [hFirst, hSecond, hThird, hLine, hMountAt, hTypeAt]
  rw [copyMountField_mangle hMount.terminated hMountFits, copyMountField_mangle hType.terminated hTypeFits]

/-- A part without a newline that is shorter than the room stands at the front
of the first line read. -/
theorem fgetsFrom_prefix (room : Nat) {front rest : Bytes} (hFront : (10 : UInt8) ∉ front)
    (hRest : rest ≠ []) {left : Nat} (hLeft : front.length < left) :
    ∃ more others, fgetsFrom room left (front ++ rest) = (front ++ more) :: others := by
  induction front generalizing left with
  | nil =>
    obtain ⟨c, rest, rfl⟩ := List.exists_cons_of_ne_nil hRest
    rw [List.nil_append, fgetsFrom]
    split
    · exact ⟨_, _, rfl⟩
    · split
      · exact ⟨_, _, rfl⟩
      · exact ⟨_, _, rfl⟩
  | cons c front ih =>
    obtain ⟨hc, hFront⟩ := not_or.mp (mt List.mem_cons.mpr hFront)
    rw [List.length_cons] at hLeft
    obtain ⟨more, others, hLine⟩ := ih hFront (by omega : front.length < left - 1)
    have hGoesOn : ¬ (c = 10 ∨ left ≤ 1) := not_or.mpr ⟨fun hSame => hc hSame.symm, by omega⟩
    refine ⟨more, others, ?_⟩
    rw [List.cons_append, fgetsFrom, if_neg hGoesOn, hLine]
    rfl

theorem newline_notMem_mangle (s : Bytes) : (10 : UInt8) ∉ mangle s :=
  notMem_escape Mangled (fun _ => Or.inr (Or.inr (Or.inl rfl))) (by decide) (by decide)

/-- A line of the mount table, read from the front of what is left of it, gives
the mount point and the type back. -/
theorem mount_line_decodes {source mount type : Bytes} (hSource : Named source) (hMount : Named mount)
    (hType : Named type) (hMountFits : mount.length < 4096) (hTypeFits : type.length < 64) (options : Bytes)
    (hLine : (mountLine source mount type options).length < 4095) (rest : Bytes) :
    mountFields (mountLine source mount type options) = some (mount ++ [0], type ++ [0]) ∧
      (fgetsLines 4096 (mountLine source mount type options ++ rest)).head?.bind mountFields =
        some (mount ++ [0], type ++ [0]) := by
  refine ⟨mountFields_mangled hSource hMount hType hMountFits hTypeFits _, ?_⟩
  have hFront : (10 : UInt8) ∉ mangle source ++ 32 :: (mangle mount ++ 32 :: (mangle type ++ [32])) := by
    simp [newline_notMem_mangle]
  have hSplit : mountLine source mount type options ++ rest =
      mangle source ++ 32 :: (mangle mount ++ 32 :: (mangle type ++ [32])) ++ (options ++ 10 :: rest) := by
    simp [mountLine]
  have hShort : (mangle source ++ 32 :: (mangle mount ++ 32 :: (mangle type ++ [32]))).length < 4095 := by
    simp only [mountLine, List.length_append, List.length_cons, List.length_nil] at hLine ⊢
    omega
  obtain ⟨more, others, hRead⟩ := fgetsFrom_prefix 4095 hFront
    (by simp : options ++ 10 :: rest ≠ []) hShort
  have hMore : mangle source ++ 32 :: (mangle mount ++ 32 :: (mangle type ++ [32])) ++ more =
      mangle source ++ 32 :: (mangle mount ++ 32 :: (mangle type ++ 32 :: more)) := by
    simp
  rw [hSplit, fgetsLines, hRead, List.head?_cons, Option.bind_some, hMore]
  exact mountFields_mangled hSource hMount hType hMountFits hTypeFits more

/-- A mount point with a space, an escape of its own, and a byte above 0x7f. -/
theorem mount_line_decodes_escapes :
    mountFields (mountLine (ascii "/dev/sda 1") (ascii "/a \\040" ++ [200]) (ascii "ext4") (ascii "rw 0 0")) =
      some (ascii "/a \\040" ++ [200, 0], ascii "ext4" ++ [0]) :=
  (mount_line_decodes ⟨by decide +kernel, by decide +kernel⟩ ⟨by decide +kernel, by decide +kernel⟩
    ⟨by decide +kernel, by decide +kernel⟩ (by decide +kernel) (by decide +kernel) _ (by decide +kernel) []).1

end HttpMonitoring.MountLines
