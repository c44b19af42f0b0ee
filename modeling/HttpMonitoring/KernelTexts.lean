import HttpMonitoring.Collection

/-!
# The kernel's texts

What the kernel prints about processors, memory, interfaces and disks is read
back as the numbers it printed, whatever the padding.
-/

namespace HttpMonitoring.KernelTexts

open Collectors Collection Library.CString Library.Scanf Library.RowTable

/-- The first line of `/proc/stat`, from the eight columns that are read on. -/
def statText (cs : List (Nat × Nat)) (rest : Bytes) : Bytes := ascii "cpu" ++ (columns cs ++ rest)

theorem assignedOf_all (cs : List (Nat × Nat)) :
    (assignedOf (List.replicate cs.length true) cs).map Item.toNat = cs.map Prod.snd := by
  induction cs with
  | nil => rfl
  | cons c cs ih => exact congrArg (c.2 :: ·) ih

theorem cpuTimes_statText {cs : List (Nat × Nat)} (hLength : cs.length = 8) (hSmall : ∀ c ∈ cs, c.2 < 2 ^ 64)
    {rest : Bytes} (hRest : ∀ c ∈ rest.head?, isDigit c = false) :
    let value := fun i => long ((cs.map Prod.snd).getD i 0)
    cpuTimes (statText cs rest) =
      some ⟨value 0, value 1, value 2, value 3, value 4, value 5, value 6, value 7⟩ := by
  have hFormat : cpuFormat = literals (ascii "cpu") ++ (conversions (List.replicate 8 true) ++ []) := rfl
  have hNumbers : scanNumbers cpuFormat (statText cs rest) = cs.map Prod.snd := by
    rw [scanNumbers, hFormat, statText, scan_literals, ← hLength,
      scan_columns (List.length_replicate ..) hSmall hRest, scan, List.append_nil, assignedOf_all]
  have hEnough : ¬ (cs.map Prod.snd).length < 4 := by
    rw [List.length_map, hLength]
    decide
  simp only [cpuTimes, hNumbers, if_neg hEnough]

theorem scan_other_label {f g : Figure} (h : g ≠ f) (s : Bytes) : scan g.format (f.label ++ s) = [] := by
  cases f <;> cases g <;> first | exact absurd rfl h | rfl

/-- A name without white space and colons that fits in its buffer. -/
structure IsName (name : Bytes) : Prop where
  nonempty : name ≠ []
  plain : ∀ c ∈ name, isSpace c = false
  noColon : (58 : UInt8) ∉ name
  fits : name.length < nameLen

theorem scan_name {name : Bytes} (h : IsName name) {rest : Bytes}
    (hRest : ∀ c ∈ rest.head?, isSpace c = true) (format : List Directive) :
    scan (.word 63 true :: format) (name ++ rest) = .word name :: scan format rest := by
  have hScan : scan (.word 63 true :: format) ([] ++ (name ++ rest)) = .word name :: scan format rest :=
    scan_word (by simp) h.nonempty h.plain (Nat.le_of_lt_succ h.fits) hRest format
  exact hScan

theorem head_name {name : Bytes} (h : IsName name) (rest : Bytes) :
    ∀ c ∈ (name ++ rest).head?, isSpace c = false := by
  intro c hc
  rw [List.head?_append_of_ne_nil _ h.nonempty] at hc
  exact h.plain c (List.mem_of_mem_head? hc)

def ifaceLine (pad : Nat) (name : Bytes) (cs : List (Nat × Nat)) (rest : Bytes) : Bytes :=
  List.replicate pad 32 ++ (name ++ 58 :: (columns cs ++ rest))

def netColumns : List Bool := [true, true, true, false, false, false, false, false, true, true, true]

theorem exists_columns {cs : List (Nat × Nat)} {n : Nat} (hLength : cs.length = n) :
    ∃ column : Nat → Nat × Nat, cs = (List.range n).map column := by
  refine ⟨fun i => cs.getD i (0, 0), List.ext_getElem (by simpa using hLength) fun i hi _ => ?_⟩
  rw [List.getElem_map, List.getElem_range, List.getD_eq_getElem _ _ hi]

/-- Of eleven columns the first three and the last three are read. -/
theorem readIface_ifaceLine (pad : Nat) {name : Bytes} (hName : IsName name) {cs : List (Nat × Nat)}
    (hLength : cs.length = netColumns.length) (hSmall : ∀ c ∈ cs, c.2 < 2 ^ 64) {rest : Bytes}
    (hRest : ∀ c ∈ rest.head?, isDigit c = false) :
    let value := fun i => (cs.map Prod.snd).getD i 0
    readIface (ifaceLine pad name cs rest) =
      some ⟨name, value 0, value 1, value 2, value 8, value 9, value 10⟩ := by
  have hFront : ∀ c ∈ List.replicate pad 32 ++ name, (decide (c ≠ 58)) = true := by
    intro c hc
    rw [decide_eq_true_eq]
    rcases List.mem_append.mp hc with hBlank | hc
    · rw [List.eq_of_mem_replicate hBlank]
      decide
    · rintro rfl
      exact hName.noColon hc
  have hLine : ifaceLine pad name cs rest =
      List.replicate pad 32 ++ name ++ 58 :: (columns cs ++ rest) := (List.append_assoc ..).symm
  have hDrop : (ifaceLine pad name cs rest).dropWhile (· ≠ 58) = 58 :: (columns cs ++ rest) := by
    rw [hLine, List.dropWhile_append_of_pos hFront]
    rfl
  have hTake : (ifaceLine pad name cs rest).takeWhile (· ≠ 58) = List.replicate pad 32 ++ name := by
    rw [hLine, List.takeWhile_append_of_pos hFront]
    simp
  have hHead : ∀ c ∈ name, c ≠ 32 := by
    rintro c hc rfl
    exact absurd (hName.plain 32 hc) (by decide)
  have hTrim : (List.replicate pad 32 ++ name).dropWhile (· = 32) = name := by
    rw [List.dropWhile_append_of_pos fun c hc => decide_eq_true (List.eq_of_mem_replicate hc)]
    obtain ⟨c, others, rfl⟩ := List.exists_cons_of_ne_nil hName.nonempty
    simp [hHead c List.mem_cons_self]
  have hWord : scan [.word 63 true] name = [.word name] := by
    have hScan : scan [.word 63 true] (name ++ []) = .word name :: scan [] [] := scan_name hName (by simp) []
    rwa [List.append_nil, scan] at hScan
  have hFormat : scan netFormat (columns cs ++ rest) = scan (conversions netColumns ++ [])
      (columns cs ++ rest) := (scan_white_unsigned true _ (columns cs ++ rest)).symm
  have hNumbers : scanNumbers netFormat (columns cs ++ rest) = (assignedOf netColumns cs).map Item.toNat := by
    rw [scanNumbers, hFormat, scan_columns hLength.symm hSmall hRest, scan, List.append_nil]
  rw [readIface, hDrop, hTake, hTrim, hWord]
  dsimp only
  rw [hNumbers]
  obtain ⟨column, rfl⟩ := exists_columns hLength
  rfl

theorem IsName.noNewline {name : Bytes} (h : IsName name) : (10 : UInt8) ∉ name :=
  fun hMem => absurd (h.plain 10 hMem) (by decide)

/-- An interface as the kernel prints it. -/
structure Iface where
  pad : Nat
  name : Bytes
  isName : IsName name
  counters : List (Nat × Nat)
  eleven : counters.length = netColumns.length
  small : ∀ c ∈ counters, c.2 < 2 ^ 64
  others : List (Nat × Nat)

namespace Iface

def text (r : Iface) : Bytes := ifaceLine r.pad r.name r.counters (columns r.others)

def counter (r : Iface) (i : Nat) : Nat := (r.counters.map Prod.snd).getD i 0

def reading (r : Iface) : IfaceReading :=
  ⟨r.name, r.counter 0, r.counter 1, r.counter 2, r.counter 8, r.counter 9, r.counter 10⟩

end Iface

theorem isDigit_head_columns (cs : List (Nat × Nat)) : ∀ c ∈ (columns cs).head?, isDigit c = false := by
  have hHead : ∀ c ∈ (columns cs ++ []).head?, isDigit c = false := head_columns (by simp)
  rwa [List.append_nil] at hHead

def diskLine (device : List (Nat × Nat)) (name : Bytes) (cs : List (Nat × Nat)) (rest : Bytes) : Bytes :=
  columns device ++ ([32] ++ (name ++ (columns cs ++ rest)))

def diskColumns : List Bool := [true, false, true, false, true, false, true, false, false, true]

/-- Behind the numbers of the device and its name, five of ten columns are read. -/
theorem readDisk_diskLine {device : List (Nat × Nat)} (hDevice : device.length = [true, true].length)
    (hDeviceSmall : ∀ c ∈ device, c.2 < 2 ^ 64) {name : Bytes} (hName : IsName name)
    (hKept : ¬ strncmpEq 4 name (ascii "loop") ∧ ¬ strncmpEq 3 name (ascii "ram")) {cs : List (Nat × Nat)}
    (hLength : cs.length = diskColumns.length) (hSmall : ∀ c ∈ cs, c.2 < 2 ^ 64) {rest : Bytes}
    (hRest : ∀ c ∈ rest.head?, isDigit c = false) :
    let value := fun i => (cs.map Prod.snd).getD i 0
    readDisk (diskLine device name cs rest) = some ⟨name, value 0, value 2, value 4, value 6, value 9⟩ := by
  have hFormat : diskFormat = conversions [true, true] ++ (.white :: .word 63 true ::
      (conversions diskColumns ++ [])) := rfl
  have hBehind : ∀ c ∈ (columns cs ++ rest).head?, isSpace c = true := by
    obtain ⟨c, others, rfl⟩ := List.exists_cons_of_length_eq_add_one hLength
    intro b hb
    obtain rfl := Option.some.inj hb
    rfl
  have hSpace : ∀ c ∈ ([32] : Bytes), isSpace c = true := by
    rintro c hc
    rw [List.mem_singleton.mp hc]
    rfl
  have hSkip : skipSpace ([32] ++ (name ++ (columns cs ++ rest))) = name ++ (columns cs ++ rest) :=
    skipSpace_blanks hSpace (head_name hName _)
  have hWord : ∀ format, scan (.white :: .word 63 true :: format) ([32] ++ (name ++ (columns cs ++ rest))) =
      .word name :: scan format (columns cs ++ rest) := by
    intro format
    rw [scan, hSkip]
    exact scan_name hName hBehind format
  have hDigit : ∀ c ∈ ([32] ++ (name ++ (columns cs ++ rest))).head?, isDigit c = false := by
    intro c hc
    obtain rfl := Option.some.inj hc
    rfl
  have hScan : scan diskFormat (diskLine device name cs rest) =
      assignedOf [true, true] device ++ .word name :: assignedOf diskColumns cs := by
    rw [hFormat, diskLine, scan_columns hDevice.symm hDeviceSmall hDigit, hWord,
      scan_columns hLength.symm hSmall hRest, scan, List.append_nil]
  rw [readDisk, hScan]
  obtain ⟨number, rfl⟩ := exists_columns hDevice
  obtain ⟨column, rfl⟩ := exists_columns hLength
  exact if_pos hKept

/-- A disk as the kernel prints it, other than a loop device or a RAM disk. -/
structure Disk where
  device : List (Nat × Nat)
  two : device.length = [true, true].length
  deviceSmall : ∀ c ∈ device, c.2 < 2 ^ 64
  name : Bytes
  isName : IsName name
  kept : ¬ strncmpEq 4 name (ascii "loop") ∧ ¬ strncmpEq 3 name (ascii "ram")
  counters : List (Nat × Nat)
  ten : counters.length = diskColumns.length
  small : ∀ c ∈ counters, c.2 < 2 ^ 64
  others : List (Nat × Nat)

namespace Disk

def text (r : Disk) : Bytes := diskLine r.device r.name r.counters (columns r.others)

def counter (r : Disk) (i : Nat) : Nat := (r.counters.map Prod.snd).getD i 0

def reading (r : Disk) : DiskReading :=
  ⟨r.name, r.counter 0, r.counter 2, r.counter 4, r.counter 6, r.counter 9⟩

end Disk

end HttpMonitoring.KernelTexts
