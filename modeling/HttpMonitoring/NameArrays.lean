import HttpMonitoring.CollectorHandler
import HttpMonitoring.JsonRoom

/-!
# The arrays of names

Names come in from requests and files and are cut to the arrays of the zone.
Every array keeps its size and a terminator, and its bytes are bytes that came in.
-/

namespace HttpMonitoring.NameArrays

open Accounting Collectors SystemCollectors CollectorHandler ZoneRegions JsonNames TopTable Zone History
  Library.CString Library.Scanf Library.RowTable
open JsonRoom (peer_countUpstream)

variable {w : Nat}

/-- An array of `size` bytes with a terminator, where `Q` holds of the bytes of its
text. -/
structure NameIn (Q : UInt8 → Prop) (size : Nat) (buffer : Bytes) : Prop where
  length : buffer.length = size
  terminated : 0 ∈ buffer
  bytes : ∀ c ∈ text buffer, Q c

theorem cleanName_iff {size : Nat} {buffer : Bytes} : CleanName size buffer ↔ NameIn Printable size buffer := by
  constructor
  · rintro ⟨hLength, hTerminated, hBytes⟩
    exact ⟨hLength, hTerminated, hBytes⟩
  · rintro ⟨hLength, hTerminated, hBytes⟩
    exact ⟨hLength, hTerminated, hBytes⟩

theorem zero_notMem_text (buffer : Bytes) : (0 : UInt8) ∉ text buffer := by
  intro hMem
  have hText := List.mem_takeWhile_imp hMem
  simp at hText

theorem text_cpystrn (dst : Bytes) {src : Bytes} {n : Nat} (hn : 0 < n) :
    text (cpystrn dst src n) = (text src).take (n - 1) := by
  rw [cpystrn, if_neg (by omega)]
  exact text_append_zero (fun hMem => zero_notMem_text src (List.mem_of_mem_take hMem)) _

theorem length_cpystrn {dst : Bytes} (src : Bytes) {n : Nat} (hn : 0 < n) (hLength : dst.length = n) :
    (cpystrn dst src n).length = n := by
  have hCopied : ((text src).take (n - 1)).length ≤ n - 1 := List.length_take_le _ _
  rw [cpystrn, if_neg (by omega)]
  simp only [List.length_append, List.length_cons, List.length_drop]
  omega

section Bytes

variable {Q : UInt8 → Prop}

theorem nameIn_cpystrn {dst src : Bytes} {n : Nat} (hn : 0 < n) (h : NameIn Q n dst) (hs : ∀ c ∈ text src, Q c) :
    NameIn Q n (cpystrn dst src n) where
  length := length_cpystrn src hn h.length
  terminated := by
    rw [cpystrn, if_neg (by omega)]
    exact List.mem_append_right _ List.mem_cons_self
  bytes c hc := by
    rw [text_cpystrn dst hn] at hc
    exact hs c (List.mem_of_mem_take hc)

/-- Of a name that is cut to a zeroed array only bytes of the name are left. -/
theorem nameIn_fill {size : Nat} (hSize : 0 < size) {s : Bytes} (hs : ∀ c ∈ s, Q c) :
    NameIn Q size (fill size (s.take (min s.length (size - 1)))) := by
  have hLength : (s.take (min s.length (size - 1))).length ≤ size - 1 := by
    rw [List.length_take]
    omega
  refine ⟨?_, ?_, fun c hc => ?_⟩
  · simp only [fill, List.length_append, List.length_replicate]
    omega
  · exact List.mem_append_right _ (List.mem_replicate.mpr ⟨by omega, rfl⟩)
  · have hNonzero : c ≠ 0 := fun h => zero_notMem_text _ (h ▸ hc)
    rcases List.mem_append.mp (List.takeWhile_subset _ hc) with hStored | hFilled
    · exact hs c (List.mem_of_mem_take hStored)
    · exact absurd (List.eq_of_mem_replicate hFilled) hNonzero

/-- The rows of a table that is read anew. -/
theorem nameIn_rows {ρ τ : Type*} {bound size : Nat} {parse : Bytes → Option ρ} {store : ρ → τ → τ}
    {buffer : τ → Bytes} {source : ρ → Bytes} {rows : Nat → τ} {lines : List Bytes} (hSize : 0 < size)
    (hBuffer : ∀ r row, buffer (store r row) = cpystrn (buffer row) (source r) size)
    (hRows : ∀ i, NameIn Q size (buffer (rows i)))
    (hRead : ∀ r ∈ stored bound parse lines, ∀ c ∈ text (source r), Q c) (i : Nat) :
    NameIn Q size (buffer ((readRows bound parse store lines 0 rows).2 i)) := by
  rw [readRows_zero]
  dsimp only
  cases hRow : (stored bound parse lines)[i]? with
  | none => exact hRows i
  | some r =>
    dsimp only
    rw [hBuffer]
    exact nameIn_cpystrn hSize (hRows i) (hRead r (List.mem_of_getElem? hRow))

end Bytes

section Slots

variable (crc32 : Bytes → BitVec 32)

/-- A slot has kept its key, or it is taken by the key of the call. -/
theorem key_updateTop (shpool : Bool) (entries : Nat → TopEntry w) (capacity : Nat) (c : TopCall w) (i : Nat) :
    (updateTop crc32 shpool entries capacity c i).key = (entries i).key ∨
      (updateTop crc32 shpool entries capacity c i).key =
        fill keyLen (c.key.take (min c.key.length (keyLen - 1))) := by
  unfold updateTop
  split
  · exact Or.inl rfl
  · cases chooseSlot crc32 entries capacity c.key with
    | found j =>
      rcases eq_or_ne i j with rfl | hij
      · rw [writeSlot, Function.update_self, (applyOps_identity _ _).1]
        exact Or.inl rfl
      · rw [writeSlot, Function.update_of_ne hij]
        exact Or.inl rfl
    | rewrite j =>
      rcases eq_or_ne i j with rfl | hij
      · rw [writeSlot, Function.update_self, (applyOps_identity _ _).1]
        exact Or.inr rfl
      · rw [writeSlot, Function.update_of_ne hij]
        exact Or.inl rfl

theorem peer_updateUpstreamSlot (entries : Nat → UpstreamEntry w) (capacity : Nat) (c : UpstreamCall w) (i : Nat) :
    (updateUpstreamSlot crc32 entries capacity c i).peer = (entries i).peer ∨
      (updateUpstreamSlot crc32 entries capacity c i).peer =
        fill keyLen (c.peer.take (min c.peer.length (keyLen - 1))) := by
  rw [updateUpstreamSlot_eq]
  split
  · exact Or.inl rfl
  · generalize Library.SlotTable.scan _ _ _ _ _ _ = choice
    unfold writeUpstream
    cases choice with
    | found j =>
      rcases eq_or_ne i j with rfl | hij
      · simp only [Function.update_self, peer_countUpstream, true_or]
      · simp only [Function.update_of_ne hij, true_or]
    | rewrite j =>
      rcases eq_or_ne i j with rfl | hij
      · simp only [Function.update_self, peer_countUpstream]
        exact Or.inr rfl
      · simp only [Function.update_of_ne hij, true_or]

end Slots

structure Names (Q : UInt8 → Prop) (sh : Shctx w) : Prop where
  urls : ∀ i, NameIn Q keyLen (sh.urls i).key
  userAgents : ∀ i, NameIn Q keyLen (sh.userAgents i).key
  upstreams : ∀ i, NameIn Q keyLen (sh.upstreams i).peer
  ifaces : ∀ i, NameIn Q nameLen (sh.ifaces i).name
  disks : ∀ i, NameIn Q nameLen (sh.disks i).name
  paths : ∀ i, NameIn Q keyLen (sh.filesystems i).path
  types : ∀ i, NameIn Q nameLen (sh.filesystems i).type

/-- The bytes of the names in a request. -/
structure FromRequest (Q : UInt8 → Prop) (r : Request w) : Prop where
  uri : ∀ c ∈ r.uri, Q c
  userAgent : ∀ u ∈ r.userAgent, ∀ c ∈ u, Q c
  peers : ∀ s ∈ r.upstreamStates, ∀ p ∈ s.peer, ∀ c ∈ p, Q c

/-- The bytes of the names that a step finds. -/
def Finds (Q : UInt8 → Prop) : Step w → Prop
  | .diskstats file => ∀ buf, readFile file 65536 = some buf →
      ∀ r ∈ stored disksMax readDisk (lines buf), ∀ c ∈ text r.name, Q c
  | .filesystems statvfs mounts => ∀ stream, mounts = some stream →
      ∀ r ∈ stored filesystemsMax (readFs statvfs) (fgetsLines 4096 stream),
        (∀ c ∈ text r.mountPath, Q c) ∧ ∀ c ∈ text r.fsType, Q c
  | .network file _ => ∀ buf, readFile file 32768 = some buf →
      ∀ r ∈ stored ifacesMax readIface (lines buf), ∀ c ∈ text r.name, Q c
  | .tables _ _ c => FromRequest Q c.request
  | _ => True

section Steps

variable {Q : UInt8 → Prop} {sh sh' : Shctx w}

theorem Names.congr (h : Names Q sh) (hRegions : ∀ i ∈ [Region.disks, .filesystems, .interfaces, .accounting],
    i.get sh' = i.get sh) : Names Q sh' := by
  simp only [List.forall_mem_cons, List.not_mem_nil, false_imp_iff, implies_true, and_true, Region.get,
    Prod.mk.injEq] at hRegions
  obtain ⟨⟨-, hDisks⟩, ⟨-, hFilesystems⟩, ⟨-, hIfaces⟩, -, -, -, hUrls, hAgents, hUpstreams⟩ := hRegions
  constructor
  · exact hUrls ▸ h.urls
  · exact hAgents ▸ h.userAgents
  · exact hUpstreams ▸ h.upstreams
  · exact hIfaces ▸ h.ifaces
  · exact hDisks ▸ h.disks
  · exact hFilesystems ▸ h.paths
  · exact hFilesystems ▸ h.types

theorem nameIn_updateTop {crc32 : Bytes → BitVec 32} {entries : Nat → TopEntry w} (shpool : Bool) (capacity : Nat)
    {c : TopCall w} (hEntries : ∀ i, NameIn Q keyLen (entries i).key) (hKey : ∀ b ∈ c.key, Q b) (i : Nat) :
    NameIn Q keyLen (updateTop crc32 shpool entries capacity c i).key := by
  rcases key_updateTop crc32 shpool entries capacity c i with hKept | hTaken
  · rw [hKept]
    exact hEntries i
  · rw [hTaken]
    exact nameIn_fill (by decide) hKey

section Tables

variable {crc32 : Bytes → BitVec 32} {c : Call w} (hc : FromRequest Q c.request)
include hc

theorem Names.urls_update (h : Names Q sh) (conf : MainConf w) (shpool : Bool) :
    Names Q (updateUrls crc32 conf shpool c sh) :=
  { h with urls := nameIn_updateTop shpool _ h.urls hc.uri }

theorem Names.userAgents_update (h : Names Q sh) (shpool : Bool) : Names Q (updateUserAgents crc32 shpool c sh) := by
  unfold updateUserAgents
  split
  · rename_i userAgent hSome
    exact { h with userAgents := nameIn_updateTop shpool _ h.userAgents (hc.userAgent userAgent hSome) }
  · exact h

/-- A peer without a name is called unknown. -/
theorem bytes_peer (hUnknown : ∀ b ∈ ascii "unknown", Q b) {state : UpstreamState w}
    (hState : state ∈ c.request.upstreamStates) : ∀ b ∈ (c.upstreamCall state).peer, Q b := by
  simp only [Call.upstreamCall]
  split
  · rename_i peer hPeer
    split
    · exact hc.peers state hState peer hPeer
    · exact hUnknown
  · exact hUnknown

theorem Names.upstreams_update (hUnknown : ∀ b ∈ ascii "unknown", Q b) (h : Names Q sh) (shpool : Bool) :
    Names Q (accountUpstream crc32 shpool c sh) := by
  have hFold : ∀ (states : List (UpstreamState w)) (entries : Nat → UpstreamEntry w),
      (∀ s ∈ states, s ∈ c.request.upstreamStates) → (∀ i, NameIn Q keyLen (entries i).peer) →
      ∀ i, NameIn Q keyLen (states.foldl (fun entries state =>
        updateUpstreamSlot crc32 entries upstreamsMax (c.upstreamCall state)) entries i).peer := by
    intro states
    induction states with
    | nil => exact fun _ _ hEntries => hEntries
    | cons state states ih =>
      intro entries hStates hEntries
      obtain ⟨hState, hStates⟩ := List.forall_mem_cons.mp hStates
      refine ih _ hStates fun i => ?_
      rcases peer_updateUpstreamSlot crc32 entries upstreamsMax (c.upstreamCall state) i with hKept | hTaken
      · rw [hKept]
        exact hEntries i
      · rw [hTaken]
        exact nameIn_fill (by decide) (bytes_peer hc hUnknown hState)
  unfold accountUpstream
  split
  · exact h
  · exact { h with upstreams := hFold _ _ (fun _ hState => hState) h.upstreams }

end Tables

variable (D : Library.Doubles.Rounding) (hUnknown : ∀ b ∈ ascii "unknown", Q b)
include hUnknown

theorem Names.run (h : Names Q sh) {x : Step w} (hx : Finds Q x) : Names Q (x.run D sh) := by
  by_cases hOther : x.region ∈ [Region.disks, .filesystems, .interfaces, .accounting]
  · cases x with
    | diskstats file =>
      simp only [Step.run, collectDiskstats]
      split
      · exact h
      · rename_i buf hFile
        exact { h with disks := nameIn_rows (by decide) (fun _ _ => rfl) h.disks (hx buf hFile) }
    | filesystems statvfs mounts =>
      cases mounts with
      | none => exact h
      | some stream =>
        have hRead := hx stream rfl
        exact { h with
          paths := nameIn_rows (by decide) (fun _ _ => rfl) h.paths fun r hr => (hRead r hr).1
          types := nameIn_rows (by decide) (fun _ _ => rfl) h.types fun r hr => (hRead r hr).2 }
    | network file addresses =>
      simp only [Step.run, collectNetwork]
      split
      · exact h
      · rename_i buf hFile
        refine { h with ifaces := fun i => ?_ }
        obtain ⟨flags, hRow⟩ := foldl_storeFlags_row _ (addresses.getD [])
          (readRows ifacesMax readIface storeIface (lines buf) 0 sh.ifaces).2 i
        have hName := congrArg IfaceMetric.name hRow
        rw [hName]
        exact nameIn_rows (by decide) (fun _ _ => rfl) h.ifaces (hx buf hFile) i
    | selfStatus slot file =>
      obtain ⟨_, hWrites⟩ := Step.collectSelfStatus_writes slot (readSelfStatus file) sh
      rw [Step.run, hWrites]
      exact ⟨h.urls, h.userAgents, h.upstreams, h.ifaces, h.disks, h.paths, h.types⟩
    | access op =>
      obtain ⟨_, _, _, hWrites⟩ := apply_writes op sh
      rw [Step.run, hWrites]
      exact ⟨h.urls, h.userAgents, h.upstreams, h.ifaces, h.disks, h.paths, h.types⟩
    | tables crc32 conf c =>
      exact ((h.urls_update hx conf true).userAgents_update hx true).upstreams_update hx hUnknown true
    | _ => exact absurd hOther (by simp [Step.region])
  · refine h.congr fun i hi => x.keeps D i sh ?_
    rintro rfl
    exact hOther hi

theorem Names.runSteps (h : Names Q sh) {steps : List (Step w)} (hSteps : ∀ x ∈ steps, Finds Q x) :
    Names Q (runSteps D steps sh) := by
  induction steps generalizing sh with
  | nil => exact h
  | cons x steps ih =>
    obtain ⟨hFirst, hRest⟩ := List.forall_mem_cons.mp hSteps
    exact ih (h.run D hUnknown hFirst) hRest

theorem Names.collect (h : Names Q sh) (p : CollectorLock.Process w) {k : Sources w}
    (hFinds : ∀ x ∈ k.steps p.conf, Finds Q x) : Names Q (collect D p k sh) := by
  obtain ⟨workers, hCollect⟩ := collect_cases D p k sh
  rw [hCollect]
  split
  · have hLocked : Names Q { sh with workers := workers, collectorLock := p.pid } :=
      ⟨h.urls, h.userAgents, h.upstreams, h.ifaces, h.disks, h.paths, h.types⟩
    have hPass := hLocked.runSteps D hUnknown hFinds
    have hHistory := hPass.congr fun i hi => get_collectHistory p.conf k.clock (i := i) (by
      rintro rfl
      exact absurd hi (by decide)) _
    exact ⟨hHistory.urls, hHistory.userAgents, hHistory.upstreams, hHistory.ifaces, hHistory.disks, hHistory.paths,
      hHistory.types⟩
  · exact ⟨h.urls, h.userAgents, h.upstreams, h.ifaces, h.disks, h.paths, h.types⟩

end Steps

/-- Single steps of requests and collectors, and any other write, which leaves the
tables with names alone. -/
inductive Event (w : Nat)
  | step (x : Step w)
  | other (write : Shctx w → Shctx w)

section Runs

variable (D : Library.Doubles.Rounding)

def Event.apply : Event w → Shctx w → Shctx w
  | .step x, sh => x.run D sh
  | .other write, sh =>
    { write sh with
      urls := sh.urls
      userAgents := sh.userAgents
      upstreams := sh.upstreams
      ifaces := sh.ifaces
      disks := sh.disks
      filesystems := sh.filesystems }

def zoneAfter (conf : MainConf w) (events : List (Event w)) : Shctx w :=
  events.foldl (fun sh e => e.apply D sh) (freshZone conf)

theorem names_freshZone (Q : UInt8 → Prop) (conf : MainConf w) : Names Q (freshZone conf) := by
  have hKey : NameIn Q keyLen (fill keyLen []) := nameIn_fill (by decide) (List.forall_mem_nil _)
  have hName : NameIn Q nameLen (fill nameLen []) := nameIn_fill (by decide) (List.forall_mem_nil _)
  exact ⟨fun _ => hKey, fun _ => hKey, fun _ => hKey, fun _ => hName, fun _ => hName, fun _ => hKey, fun _ => hName⟩

/-- In the names of the zone there are only bytes of names that came in, and the
arrays keep their sizes and terminators. -/
theorem names_zoneAfter {Q : UInt8 → Prop} (hUnknown : ∀ b ∈ ascii "unknown", Q b) (conf : MainConf w)
    {events : List (Event w)} (hFinds : ∀ x, Event.step x ∈ events → Finds Q x) :
    Names Q (zoneAfter D conf events) := by
  induction events using List.reverseRecOn with
  | nil => exact names_freshZone Q conf
  | append_singleton events e ih =>
    have hBefore := ih fun x hx => hFinds x (List.mem_append_left _ hx)
    rw [zoneAfter, List.foldl_append, List.foldl_cons, List.foldl_nil]
    cases e with
    | step x => exact hBefore.run D hUnknown (hFinds x (List.mem_append_right _ List.mem_cons_self))
    | other write =>
      exact ⟨hBefore.urls, hBefore.userAgents, hBefore.upstreams, hBefore.ifaces, hBefore.disks, hBefore.paths,
        hBefore.types⟩

/-- Whatever comes in, and in whatever order the steps are taken. -/
theorem names_stay_terminated (conf : MainConf w) (events : List (Event w)) :
    Names (fun _ => True) (zoneAfter D conf events) := by
  refine names_zoneAfter D (fun _ _ => trivial) conf fun x _ => ?_
  cases x with
  | tables crc32 conf c => exact ⟨fun _ _ => trivial, fun _ _ _ _ => trivial, fun _ _ _ _ _ _ => trivial⟩
  | diskstats file => exact fun _ _ _ _ _ _ => trivial
  | filesystems statvfs mounts => exact fun _ _ _ _ => ⟨fun _ _ => trivial, fun _ _ => trivial⟩
  | network file addresses => exact fun _ _ _ _ _ _ => trivial
  | _ => trivial

end Runs

theorem Names.clean {sh : Shctx w} (h : Names Printable sh) : CleanZone sh where
  urls i _ := cleanName_iff.mpr (h.urls i)
  userAgents i _ := cleanName_iff.mpr (h.userAgents i)
  upstreams i _ := cleanName_iff.mpr (h.upstreams i)
  ifaces i _ := cleanName_iff.mpr (h.ifaces i)
  disks i _ := cleanName_iff.mpr (h.disks i)
  paths i _ := cleanName_iff.mpr (h.paths i)
  types i _ := cleanName_iff.mpr (h.types i)

end HttpMonitoring.NameArrays
