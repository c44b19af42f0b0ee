import HttpMonitoring.JsonSections

/-!
# Stored names in the documents

Which buffers hold a name that can be escaped, what becomes of a name in the
sorted copies of the top tables, and how long its escaped text is.
-/

namespace HttpMonitoring.JsonNames

open Library.CString Library.JsonText TopTable Zone JsonWriter JsonSections

variable {w : Nat}

/-- A byte that has a JSON text without the numeric escape. -/
def Printable (c : UInt8) : Prop := 32 ≤ c ∨ c = 10 ∨ c = 13 ∨ c = 9

instance (c : UInt8) : Decidable (Printable c) := inferInstanceAs (Decidable (_ ∨ _))

/-- A terminated array of `size` bytes without control bytes, except those with
an escape of their own. -/
structure CleanName (size : Nat) (buffer : Bytes) : Prop where
  length : buffer.length = size
  terminated : 0 ∈ buffer
  printable : ∀ c ∈ text buffer, Printable c

structure CleanZone (sh : Shctx w) : Prop where
  urls : ∀ i < topUrlsMax, CleanName keyLen (sh.urls i).key
  userAgents : ∀ i < topUaMax, CleanName keyLen (sh.userAgents i).key
  upstreams : ∀ i < upstreamsMax, CleanName keyLen (sh.upstreams i).peer
  ifaces : ∀ i < ifacesMax, CleanName nameLen (sh.ifaces i).name
  disks : ∀ i < disksMax, CleanName nameLen (sh.disks i).name
  paths : ∀ i < filesystemsMax, CleanName keyLen (sh.filesystems i).path
  types : ∀ i < filesystemsMax, CleanName nameLen (sh.filesystems i).type

theorem isBody_escaped (R : Vslprintf w) {data : Bytes}
    (h : ∀ c ∈ data, Printable c) : IsBody (escaped R data) := by
  refine isBody_flatMap fun c hc => ?_
  have hClean := h c hc
  unfold Printable at hClean
  unfold escape
  split_ifs with hQuote hNewline hReturn hTab hControl
  · exact .escape (by rcases hQuote with rfl | rfl <;> decide) .nil
  · exact .escape (by decide) .nil
  · exact .escape (by decide) .nil
  · exact .escape (by decide) .nil
  · grind
  · exact .plain (by grind) .nil

theorem insertDown_perm (tmp : TopView w) (sorted : List (TopView w)) :
    (insertDown tmp sorted).Perm (tmp :: sorted) := by
  induction sorted with
  | nil => exact .rfl
  | cons v rest ih =>
    rw [insertDown]
    split
    · exact (ih.cons v).trans (.swap tmp v rest)
    · exact .rfl

theorem sortTop_perm (views : List (TopView w)) : (sortTop views).Perm views := by
  have hFold : ∀ sorted : List (TopView w),
      (views.foldl (fun sorted tmp => insertDown tmp sorted) sorted).Perm (views ++ sorted) := by
    induction views with
    | nil => exact fun _ => .rfl
    | cons v views ih =>
      intro sorted
      exact (ih _).trans (((insertDown_perm v sorted).append_left views).trans
        List.perm_middle)
  refine (List.reverse_perm _).trans ?_
  simpa using hFold []

theorem clean_fill {size : Nat} {s : Bytes} (hs : ∀ c ∈ s, Printable c) (hSize : s.length < size) :
    CleanName size (fill size s) := by
  have hZero : (0 : UInt8) ∉ s := fun h => absurd (hs 0 h) (by decide)
  constructor
  · rw [fill, List.length_append, List.length_replicate]
    omega
  · simp only [fill, List.mem_append, List.mem_replicate]
    exact Or.inr ⟨by omega, trivial⟩
  · rwa [text_fill hZero]

theorem clean_freshZone (conf : MainConf w) : CleanZone (freshZone conf) := by
  have hKey : CleanName keyLen (fill keyLen []) := clean_fill (by simp) (by decide)
  have hName : CleanName nameLen (fill nameLen []) := clean_fill (by simp) (by decide)
  exact ⟨fun _ _ => hKey, fun _ _ => hKey, fun _ _ => hKey, fun _ _ => hName, fun _ _ => hName,
    fun _ _ => hKey, fun _ _ => hName⟩

theorem clean_viewOf {e : TopEntry w} (h : CleanName keyLen e.key) :
    CleanName keyLen (viewOf e).key :=
  clean_fill (fun c hc => h.printable c (List.mem_of_mem_take hc))
    ((List.length_take_le _ _).trans_lt (by decide))

theorem mem_sortTop {entries : Nat → TopEntry w} {capacity : Nat} {v : TopView w}
    (h : v ∈ sortTop (topViews entries capacity)) : ∃ i < capacity, viewOf (entries i) = v := by
  obtain ⟨i, hi, hView⟩ := List.mem_map.mp ((sortTop_perm _).mem_iff.mp h)
  exact ⟨i, List.mem_range.mp (List.mem_of_mem_filter hi), hView⟩

def occupied (n : Nat) (p : Nat → Prop) [DecidablePred p] : Nat := (List.range n).countP p

theorem occupied_le (n : Nat) (p : Nat → Prop) [DecidablePred p] : occupied n p ≤ n :=
  List.countP_le_length.trans_eq List.length_range

theorem length_filter_range {n : Nat} (p : Nat → Prop) [DecidablePred p] :
    ((List.range n).filter p).length = occupied n p :=
  List.countP_eq_length_filter.symm

theorem length_sortTop (entries : Nat → TopEntry w) (capacity : Nat) :
    (sortTop (topViews entries capacity)).length =
      occupied capacity fun i => (entries i).hits ≠ 0 := by
  rw [(sortTop_perm _).length_eq, topViews, List.length_map, length_filter_range]

theorem escape_length_le (R : Vslprintf w) {c : UInt8} (h : Printable c) :
    (escape R c).length ≤ 2 := by
  unfold escape
  split_ifs with hQuote hNewline hReturn hTab hControl
  · simp
  · simp [ascii]
  · simp [ascii]
  · simp [ascii]
  · simp only [Printable] at h
    grind
  · simp

theorem escaped_length_le (R : Vslprintf w) {data : Bytes} (h : ∀ c ∈ data, Printable c) :
    (escaped R data).length ≤ 2 * data.length := by
  induction data with
  | nil => simp [escaped]
  | cons c data ih =>
    have hHead := escape_length_le R (h c List.mem_cons_self)
    have hTail := ih fun d hd => h d (List.mem_cons_of_mem _ hd)
    simp only [escaped, List.flatMap_cons, List.length_append, List.length_cons] at *
    omega

theorem CleanName.escaped_length (R : Vslprintf w) {size : Nat} {buffer : Bytes}
    (h : CleanName size buffer) : (escaped R (text buffer)).length ≤ 2 * (size - 1) := by
  have hText := text_length_lt h.terminated
  have hLength := h.length
  have hEscaped := escaped_length_le R h.printable
  omega

end HttpMonitoring.JsonNames
