import HttpMonitoring.SystemCollectors

/-!
# The kernel's other texts

Load, uptime, socket tables and the status of a process as the kernel prints
them, and what the collectors make of these texts.
-/

namespace HttpMonitoring.SystemTexts

open Accounting Collectors WorkerRows SystemCollectors Library.CString Library.Scanf Library.Decimal
  Library.Doubles Library.LabelledLines

variable {w : Nat}

def loadText (l1 l5 l15 : Nat) (rest : Bytes) : Bytes :=
  hundredths l1 ++ 32 :: (hundredths l5 ++ 32 :: (hundredths l15 ++ 32 :: rest))

theorem blank_head (rest : Bytes) : ∀ c ∈ (32 :: rest).head?, isDigit c = false := by
  intro c hc
  obtain rfl := Option.some.inj hc
  rfl

theorem reals_loadText (l1 l5 l15 : Nat) (rest : Bytes) :
    reals 3 (loadText l1 l5 l15 rest) = [(l1 : ℚ) / 100, (l5 : ℚ) / 100, (l15 : ℚ) / 100] := by
  have hBlank : ∀ c ∈ ([32] : Bytes), isSpace c = true := List.forall_mem_singleton.mpr rfl
  have hFirst : realPrefix (loadText l1 l5 l15 rest) = _ :=
    realPrefix_hundredths (List.forall_mem_nil _) l1
      (blank_head (hundredths l5 ++ 32 :: (hundredths l15 ++ 32 :: rest)))
  have hSecond : realPrefix (32 :: (hundredths l5 ++ 32 :: (hundredths l15 ++ 32 :: rest))) = _ :=
    realPrefix_hundredths hBlank l5 (blank_head (hundredths l15 ++ 32 :: rest))
  have hThird : realPrefix (32 :: (hundredths l15 ++ 32 :: rest)) = _ :=
    realPrefix_hundredths hBlank l15 (blank_head rest)
  rw [reals, hFirst]
  dsimp only
  rw [reals, hSecond]
  dsimp only
  rw [reals, hThird]
  rfl

def uptimeText (uptime : Nat) (rest : Bytes) : Bytes := hundredths uptime ++ 32 :: rest

theorem reals_uptimeText (uptime : Nat) (rest : Bytes) :
    reals 1 (uptimeText uptime rest) = [(uptime : ℚ) / 100] := by
  have hFirst : realPrefix (uptimeText uptime rest) = _ :=
    realPrefix_hundredths (List.forall_mem_nil _) uptime (blank_head rest)
  rw [reals, hFirst]
  rfl

section Doubles

variable (D : Rounding)

/-- Hundredths, rounded and multiplied by a thousand, are off by less than one. -/
theorem thousandths_bounds {n : ℕ} (hn : n < 2 ^ 46) :
    (10 * n : ℚ) - 1 ≤ D.round (D.round (n / 100) * 1000) ∧ D.round (D.round (n / 100) * 1000) < 10 * n + 1 := by
  rcases Nat.eq_zero_or_pos n with rfl | hPositive
  · have hZero : D.round 0 = 0 := by simpa using D.whole 0 (by norm_num)
    norm_num [hZero]
  · have hOne : (1 : ℚ) ≤ n := by exact_mod_cast hPositive
    have hMost : (n : ℚ) ≤ 2 ^ 46 := by exact_mod_cast hn.le
    have hFirst := abs_le.mp (D.error (n / 100) (normal_of_bounds (by linarith) (by linarith)))
    obtain ⟨hLow, hHigh⟩ := hFirst
    have hRead : (n : ℚ) / 100 * (1 - 1 / 2 ^ 53) ≤ D.round (n / 100) := by linarith
    have hRead' : D.round (n / 100) ≤ (n : ℚ) / 100 * (1 + 1 / 2 ^ 53) := by linarith
    have hSecond := abs_le.mp (D.error (D.round (n / 100) * 1000)
      (normal_of_bounds (by linarith) (by linarith)))
    obtain ⟨hLow', hHigh'⟩ := hSecond
    constructor <;> linarith

/-- The stored thousandths of a number with two decimals: all, or one less. -/
def Thousandths (hundredths stored : Nat) : Prop := stored = 10 * hundredths ∨ stored + 1 = 10 * hundredths

theorem milliLoad_hundredths {n : ℕ} (hn : n < 2 ^ 46) :
    ∃ m, Thousandths n m ∧ (milliLoad D ((n : ℚ) / 100) : BitVec w) = BitVec.ofNat w m := by
  obtain ⟨hLow, hHigh⟩ := thousandths_bounds D hn
  refine ⟨⌊D.round (D.round (n / 100) * 1000)⌋₊, ?_, rfl⟩
  have hMost : ⌊D.round (D.round (n / 100) * 1000)⌋₊ < 10 * n + 1 :=
    (Nat.floor_lt' (Nat.succ_ne_zero _)).mpr (by exact_mod_cast hHigh)
  have hLeast : 10 * n ≤ ⌊D.round (D.round (n / 100) * 1000)⌋₊ + 1 := by
    have hNat : ((10 * n : ℕ) : ℚ) < (⌊D.round (D.round (n / 100) * 1000)⌋₊ + 1 + 1 : ℕ) := by
      have hNext := Nat.lt_floor_add_one (D.round (D.round (n / 100) * 1000))
      push_cast
      linarith
    exact Nat.lt_succ_iff.mp (by exact_mod_cast hNat)
  rw [Thousandths]
  omega

theorem collectLoad_printed {l1 l5 l15 : Nat} (h1 : l1 < 2 ^ 46) (h5 : l5 < 2 ^ 46) (h15 : l15 < 2 ^ 46)
    {rest : Bytes} {file : Option Bytes} (hFile : readFile file 256 = some (loadText l1 l5 l15 rest))
    (sh : Shctx w) : ∃ m1 m5 m15, Thousandths l1 m1 ∧ Thousandths l5 m5 ∧ Thousandths l15 m15 ∧
      collectLoad D file sh = { sh with system := { sh.system with
        load1Milli := BitVec.ofNat w m1, load5Milli := BitVec.ofNat w m5, load15Milli := BitVec.ofNat w m15 } } := by
  obtain ⟨m1, hm1, hStored1⟩ := milliLoad_hundredths (w := w) D h1
  obtain ⟨m5, hm5, hStored5⟩ := milliLoad_hundredths (w := w) D h5
  obtain ⟨m15, hm15, hStored15⟩ := milliLoad_hundredths (w := w) D h15
  refine ⟨m1, m5, m15, hm1, hm5, hm15, ?_⟩
  rw [collectLoad, hFile]
  dsimp only
  rw [reals_loadText]
  dsimp only
  rw [hStored1, hStored5, hStored15]

theorem collectUptime_printed {uptime : Nat} (hUptime : uptime < 2 ^ 46) {rest : Bytes} {file : Option Bytes}
    (hFile : readFile file 256 = some (uptimeText uptime rest)) (sh : Shctx w) :
    collectUptime D file sh = { sh with system := { sh.system with uptime := BitVec.ofNat w (uptime / 100) } } := by
  rw [collectUptime, hFile]
  dsimp only
  rw [reals_uptimeText]
  dsimp only
  rw [castDouble, D.floor_hundredths (by omega)]

end Doubles

/-- The nearest double below 2.01 ends up one thousandth short. -/
example : milliLoad toNearest (201 / 100) = (2009 : BitVec 64) := by decide +kernel

structure IsAddress (a : Bytes) : Prop where
  nonempty : a ≠ []
  fits : a.length ≤ 64
  plain : ∀ c ∈ a, isSpace c = false ∧ c ≠ 0

/-- A line of `/proc/net/tcp`, where `others` stands behind the state. -/
structure Socket where
  pad : Nat
  slot : Nat
  localAddress : Bytes
  remoteAddress : Bytes
  state : Nat
  others : Bytes
  bounds : pad ≤ 16 ∧ slot < 2 ^ 64 ∧ state < 256 ∧ others.length ≤ 256
  isLocal : IsAddress localAddress
  isRemote : IsAddress remoteAddress
  oneLine : (10 : UInt8) ∉ others ∧ (0 : UInt8) ∉ others

namespace Socket

def text (s : Socket) : Bytes :=
  List.replicate s.pad 32 ++ (natText s.slot ++ 58 :: 32 :: (s.localAddress ++ 32 :: (s.remoteAddress ++
    32 :: (hexByte s.state ++ 32 :: s.others))))

theorem head_address {a : Bytes} (h : IsAddress a) (rest : Bytes) : ∀ c ∈ (a ++ rest).head?, isSpace c = false := by
  intro c hc
  rw [List.head?_append_of_ne_nil _ h.nonempty] at hc
  exact (h.plain c (List.mem_of_mem_head? hc)).1

theorem head_natText (n : Nat) (rest : Bytes) : ∀ c ∈ (natText n ++ rest).head?, isSpace c = false := by
  intro c hc
  rw [List.head?_append_of_ne_nil _ (natText_ne_nil n)] at hc
  exact (isDigit_starts (isDigit_of_mem_natText (List.mem_of_mem_head? hc))).1

theorem after_tcpFormat (s : Socket) (rest : Bytes) :
    after tcpFormat (s.text ++ rest) = some (hexByte s.state ++ 32 :: (s.others ++ rest)) := by
  obtain ⟨-, hSlot, hState, -⟩ := s.bounds
  have hBlank : ∀ c ∈ ([32] : Bytes), isSpace c = true := List.forall_mem_singleton.mpr rfl
  have hColon : ∀ c ∈ (58 :: 32 :: (s.localAddress ++ 32 :: (s.remoteAddress ++ 32 :: (hexByte s.state ++
      32 :: (s.others ++ rest))))).head?, isDigit c = false := by
    intro c hc
    obtain rfl := Option.some.inj hc
    rfl
  have hSpace : ∀ (t : Bytes), ∀ c ∈ (32 :: t).head?, isSpace c = true := by
    intro t c hc
    obtain rfl := Option.some.inj hc
    rfl
  have hHex : ∀ c ∈ (hexByte s.state ++ 32 :: (s.others ++ rest)).head?, isSpace c = false := by
    intro c hc
    obtain rfl := Option.some.inj hc
    exact (hexChar_reads (Nat.div_lt_of_lt_mul hState)).2.2.1
  have hLocalSkip := fun format => after_white hBlank
    (head_address s.isLocal (32 :: (s.remoteAddress ++ 32 :: (hexByte s.state ++ 32 :: (s.others ++ rest))))) format
  have hRemoteSkip := fun format => after_white hBlank
    (head_address s.isRemote (32 :: (hexByte s.state ++ 32 :: (s.others ++ rest)))) format
  have hStateSkip := fun format => after_white hBlank hHex format
  rw [text, tcpFormat]
  simp only [List.append_assoc, List.cons_append]
  rw [after_white (fun c hc => isSpace_of_mem_replicate hc) (head_natText s.slot _), after_number hSlot hColon, after,
    if_pos rfl]
  refine (hLocalSkip _).trans ?_
  rw [after_word s.isLocal.nonempty (fun c hc => (s.isLocal.plain c hc).1) s.isLocal.fits (hSpace _)]
  refine (hRemoteSkip _).trans ?_
  rw [after_word s.isRemote.nonempty (fun c hc => (s.isRemote.plain c hc).1) s.isRemote.fits (hSpace _)]
  exact hStateSkip _

theorem tcpState_text (s : Socket) (rest : Bytes) :
    tcpState (s.text ++ rest) = some (BitVec.ofNat 32 s.state) := by
  have hBlank : ∀ c ∈ (32 :: (s.others ++ rest)).head?, isHexDigit c = false := by
    intro c hc
    obtain rfl := Option.some.inj hc
    rfl
  rw [tcpState, after_tcpFormat, Option.bind_some, hexPrefix_hexByte s.bounds.2.2.1 hBlank, Option.map_some]

theorem newline_notMem_text (s : Socket) : (10 : UInt8) ∉ s.text := by
  have hSpaces : ∀ {a : Bytes}, IsAddress a → (10 : UInt8) ∉ a := fun h hMem =>
    absurd (h.plain 10 hMem).1 (by decide)
  have hNumber : (10 : UInt8) ∉ natText s.slot := fun hMem =>
    absurd (isDigit_of_mem_natText hMem).1 (by decide)
  have hHex : ∀ d < 16, hexChar d ≠ 10 := by decide
  have hState : (10 : UInt8) ∉ hexByte s.state := by
    have hHigh := hHex (s.state / 16) (Nat.div_lt_of_lt_mul s.bounds.2.2.1)
    have hLow := hHex (s.state % 16) (Nat.mod_lt _ (by decide))
    simp [hexByte, hHigh.symm, hLow.symm]
  simp [text, List.mem_replicate, hSpaces s.isLocal, hSpaces s.isRemote, hNumber, hState, s.oneLine.1]

theorem zero_notMem_text (s : Socket) : (0 : UInt8) ∉ s.text := by
  have hAddress : ∀ {a : Bytes}, IsAddress a → (0 : UInt8) ∉ a := fun h hMem => (h.plain 0 hMem).2 rfl
  have hNumber : (0 : UInt8) ∉ natText s.slot := fun hMem =>
    absurd (isDigit_of_mem_natText hMem).1 (by decide)
  have hHex : ∀ d < 16, hexChar d ≠ 0 := by decide
  have hState : (0 : UInt8) ∉ hexByte s.state := by
    have hHigh := hHex (s.state / 16) (Nat.div_lt_of_lt_mul s.bounds.2.2.1)
    have hLow := hHex (s.state % 16) (Nat.mod_lt _ (by decide))
    simp [hexByte, hHigh.symm, hLow.symm]
  simp [text, List.mem_replicate, hAddress s.isLocal, hAddress s.isRemote, hNumber, hState, s.oneLine.2]

theorem length_text (s : Socket) : s.text.length < 511 := by
  obtain ⟨hPad, hSlot, -, hOthers⟩ := s.bounds
  have hNumber : (natText s.slot).length ≤ 20 := natText_length_le (by decide) (by omega)
  have hState : (hexByte s.state).length = 2 := rfl
  have hLocal := s.isLocal.fits
  have hRemote := s.isRemote.fits
  simp only [text, List.length_append, List.length_replicate, List.length_cons, hState]
  omega

end Socket

theorem fgetsFrom_line (room : Nat) {line : Bytes} (hLine : (10 : UInt8) ∉ line) {left : Nat}
    (hFits : line.length < left) (rest : Bytes) :
    fgetsFrom room left (line ++ 10 :: rest) = (line ++ [10]) :: fgetsFrom room room rest := by
  induction line generalizing left with
  | nil => rw [List.nil_append, fgetsFrom, if_pos (Or.inl rfl), List.nil_append]
  | cons c line ih =>
    obtain ⟨hFirst, hRest⟩ := not_or.mp (mt List.mem_cons.mpr hLine)
    rw [List.length_cons] at hFits
    have hGoesOn : ¬ (c = 10 ∨ left ≤ 1) := by
      rintro (rfl | hSmall)
      · exact hFirst rfl
      · omega
    rw [List.cons_append, fgetsFrom, if_neg hGoesOn, ih hRest (by omega)]
    rfl

/-- Lines that fit the buffer are read one by one. -/
theorem fgetsLines_lines {size : Nat} {lines : List Bytes}
    (h : ∀ line ∈ lines, (10 : UInt8) ∉ line ∧ line.length < size - 1) :
    fgetsLines size (lines.flatMap fun line => line ++ [10]) = lines.map fun line => line ++ [10] := by
  rw [fgetsLines]
  induction lines with
  | nil => rfl
  | cons line lines ih =>
    obtain ⟨⟨hLine, hFits⟩, hRest⟩ := List.forall_mem_cons.mp h
    rw [List.flatMap_cons, List.append_assoc, List.singleton_append, fgetsFrom_line _ hLine hFits, ih hRest,
      List.map_cons]

/-- A socket table: a line with the titles, and the sockets. -/
structure SocketTable where
  titles : Bytes
  oneLine : (10 : UInt8) ∉ titles
  short : titles.length < 511
  sockets : List Socket

namespace SocketTable

def text (t : SocketTable) : Bytes := (t.titles :: t.sockets.map Socket.text).flatMap fun line => line ++ [10]

theorem countState_text (t : SocketTable) {state : Nat} (hState : state < 256) :
    countState (BitVec.ofNat 32 state) t.text = t.sockets.countP fun s => s.state = state := by
  have hLines : fgetsLines 512 t.text = (t.titles :: t.sockets.map Socket.text).map fun line => line ++ [10] := by
    refine fgetsLines_lines fun line hLine => ?_
    rcases List.mem_cons.mp hLine with rfl | hSocket
    · exact ⟨t.oneLine, t.short⟩
    · obtain ⟨s, -, rfl⟩ := List.mem_map.mp hSocket
      exact ⟨s.newline_notMem_text, s.length_text⟩
  have hRead : ∀ s : Socket, tcpState (Library.CString.text (s.text ++ [10])) = some (BitVec.ofNat 32 s.state) := by
    intro s
    rw [text_of_not_mem (by simp [s.zero_notMem_text]), s.tcpState_text]
  have hSame : ∀ s : Socket, BitVec.ofNat 32 s.state = BitVec.ofNat 32 state ↔ s.state = state := by
    intro s
    have hByte := s.bounds.2.2.1
    rw [← BitVec.toNat_inj, BitVec.toNat_ofNat, BitVec.toNat_ofNat, Nat.mod_eq_of_lt (by omega),
      Nat.mod_eq_of_lt (by omega)]
  rw [countState, hLines, List.map_cons, List.tail_cons, List.map_map, List.map_map, List.filterMap_map]
  simp only [Function.comp_def, hRead]
  rw [List.filterMap_eq_map', List.count_eq_countP, List.countP_map]
  refine List.countP_congr fun s _ => ?_
  simp [hSame]

end SocketTable

/-- Both tables are counted together; one that is missing counts nothing. -/
theorem collectTcp_printed (tcp tcp6 : Option SocketTable) (sh : Shctx w) :
    let sockets := (tcp.toList ++ tcp6.toList).flatMap SocketTable.sockets
    collectTcp (tcp.map SocketTable.text) (tcp6.map SocketTable.text) sh =
      { sh with system := { sh.system with
        tcpEstablished := BitVec.ofNat w (sockets.countP fun s => s.state = 1)
        tcpListen := BitVec.ofNat w (sockets.countP fun s => s.state = 10) } } := by
  have hEstablished : ∀ t : SocketTable, countState tcpEstablished t.text = _ := fun t =>
    t.countState_text (by decide : 1 < 256)
  have hListen : ∀ t : SocketTable, countState tcpListen t.text = _ := fun t =>
    t.countState_text (by decide : 10 < 256)
  cases tcp <;> cases tcp6 <;> simp [collectTcp, hEstablished, hListen]

namespace SockFigure

def label (f : SockFigure) : Bytes := f.title ++ 32 :: f.key

theorem newline_notMem_label (f : SockFigure) : (10 : UInt8) ∉ label f := by
  cases f <;> decide +kernel

theorem scan_other {f g : SockFigure} (h : g ≠ f) (s : Bytes) : scan g.format (label f ++ s) = [] := by
  cases f <;> cases g <;> first | exact absurd rfl h | rfl

theorem scan_own (f : SockFigure) {blanks rest : Bytes} {n : Nat} (hBlanks : ∀ c ∈ blanks, isSpace c = true)
    (hn : n < 2 ^ 64) (hRest : ∀ c ∈ rest.head?, isDigit c = false) :
    scanNumbers f.format (label f ++ (blanks ++ natText n ++ rest)) = [n] := by
  have hKey : scan (.white :: (literals f.key ++ llu)) (32 :: (f.key ++ (blanks ++ natText n ++ rest))) =
      scan (literals f.key ++ llu) (f.key ++ (blanks ++ natText n ++ rest)) := by
    cases f <;> rfl
  have hNumber : scanNumbers (literals f.key ++ llu) (f.key ++ (blanks ++ natText n ++ rest)) = [n] :=
    scanNumbers_labelled (List.forall_mem_nil _) hBlanks hn hRest
  rw [scanNumbers, SockFigure.format, label, List.append_assoc, List.cons_append, scan_literals, hKey]
  exact hNumber

theorem readLabelled_line (f : SockFigure) {blanks rest : Bytes} {n : Nat}
    (h : (Line.figure f blanks n rest).Valid SockFigure.all SockFigure.format) :
    readLabelled SockFigure.all SockFigure.format ((Line.figure f blanks n rest).text label) = some (f, n) := by
  obtain ⟨hBlanks, hSmall, hRest, -⟩ := h
  refine readLabelled_own _ _ (by cases f <;> decide) (scan_own f (fun c hc => (hBlanks c hc).1) hSmall hRest) ?_
  intro g hg
  rw [Line.text, scanNumbers, scan_other hg]
  rfl

/-- Each figure is the last one of its lines, or what it was. -/
theorem collectSockstat_printed {printed : List (Line SockFigure)}
    (hValid : ∀ l ∈ printed, l.Valid SockFigure.all SockFigure.format) {file : Option Bytes}
    (hFile : readFile file 4096 = some ((printed.map (Line.text label)).flatMap fun line => line ++ [10]))
    (sh : Shctx w) (f : SockFigure) : f.get (collectSockstat file sh).system =
      ((lastOf f (printed.filterMap Line.pair?)).map SockFigure.word).getD (f.get sh.system) := by
  have hPairs := filterMap_readLabelled newline_notMem_label (fun f _ _ _ h => readLabelled_line f h) hValid
  rw [collectSockstat, hFile, ← hPairs]
  exact get_storeLines SystemCollectors.SockFigure.get_store_self
    (fun _ _ => SystemCollectors.SockFigure.get_store_of_ne) _ sh.system f

end SockFigure

namespace StatusFigure

theorem newline_notMem_label (f : StatusFigure) : (10 : UInt8) ∉ f.label := by
  cases f <;> decide +kernel

theorem scan_other {f g : StatusFigure} (h : g ≠ f) (s : Bytes) : scan g.format (f.label ++ s) = [] := by
  cases f <;> cases g <;> first | exact absurd rfl h | rfl

theorem silent_unit (f : StatusFigure) : Silent f.unit := by
  rw [StatusFigure.unit]
  split
  · intro d hd
    rcases List.mem_cons.mp hd with rfl | hd
    · exact Or.inl rfl
    · exact silent_literals _ d hd
  · exact List.forall_mem_nil _

theorem readLabelled_line (f : StatusFigure) {blanks rest : Bytes} {n : Nat}
    (h : (Line.figure f blanks n rest).Valid StatusFigure.all StatusFigure.format) :
    readLabelled StatusFigure.all StatusFigure.format ((Line.figure f blanks n rest).text StatusFigure.label) =
      some (f, n) := by
  obtain ⟨hBlanks, hSmall, hRest, -⟩ := h
  refine readLabelled_own _ _ (by cases f <;> decide)
    (scanNumbers_labelled (silent_unit f) (fun c hc => (hBlanks c hc).1) hSmall hRest) ?_
  intro g hg
  rw [Line.text, scanNumbers, scan_other hg]
  rfl

/-- The file is read as the last figure of each label. -/
theorem readSelfStatus_printed {printed : List (Line StatusFigure)}
    (hValid : ∀ l ∈ printed, l.Valid StatusFigure.all StatusFigure.format) {file : Option Bytes}
    (hFile : readFile file 8192 =
      some ((printed.map (Line.text StatusFigure.label)).flatMap fun line => line ++ [10])) :
    ∃ found : SelfStatus w, readSelfStatus file = some found ∧
      ∀ f, f.get found = (lastOf f (printed.filterMap Line.pair?)).map f.word := by
  have hPairs := filterMap_readLabelled newline_notMem_label (fun f _ _ _ h => readLabelled_line f h) hValid
  have hSame : ∀ (f : StatusFigure) n (s : SelfStatus w), f.get (f.store n s) = some (f.word n) := by
    intro f n s
    cases f <;> rfl
  have hOther : ∀ (f g : StatusFigure) n (s : SelfStatus w), g ≠ f → g.get (f.store n s) = g.get s := by
    intro f g n s h
    cases f <;> cases g <;> first | rfl | exact absurd rfl h
  refine ⟨_, by rw [readSelfStatus, hFile, Option.map_some], fun f => ?_⟩
  rw [get_storeLines hSame hOther, hPairs]
  cases lastOf f (printed.filterMap Line.pair?) with
  | none => cases f <;> rfl
  | some n => rfl

end StatusFigure

end HttpMonitoring.SystemTexts
