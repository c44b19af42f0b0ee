import HttpMonitoring.TopTableTotals
import HttpMonitoring.JsonNames
import HttpMonitoring.JsonDocument
import HttpMonitoring.JsonSize
import HttpMonitoring.Library.Interleaving

/-!
# The published URLs

Requests are accounted one at a time while reloads change the size of the URL
table. The writer stays in the slots of its own configuration, the reader
shows every slot of the array that is in use.
-/

namespace HttpMonitoring.TopUrls

open Library.CString Library.SlotTable Library.Interleaving Library.BoundedWriter Library.JsonText
  TopTable Accounting Zone JsonWriter JsonSections JsonNames JsonDocument JsonSize

variable {w : Nat} (R : Vslprintf w) (crc32 : Bytes → BitVec 32)

/-- The current configuration and the zone. -/
structure Cycle (w : Nat) where
  conf : MainConf w
  sh : Shctx w

/-- A request is accounted under the configuration of its worker, which may be
one of an earlier cycle. -/
inductive Label (w : Nat)
  | account (conf : MainConf w) (c : Call w)
  | reload (conf : MainConf w)

def step (s : Cycle w) : Label w → Option (Cycle w)
  | .account conf c => some { s with sh := accountRequest crc32 conf true c s.sh }
  | .reload conf => some ⟨conf, adoptZone conf s.sh⟩

def start (conf : MainConf w) : Cycle w := ⟨conf, freshZone conf⟩

/-- Accepted configurations, and URIs without a terminator inside. -/
def Valid (_ : Cycle w) : Label w → Prop
  | .account conf c => Accepted conf ∧ (0 : UInt8) ∉ c.request.uri
  | .reload conf => Accepted conf

def InUse (e : TopEntry w) : Prop := text e.key ≠ []

def shownUrl (url : Bytes) : Bytes := escaped R url

/-- For a call: the worker's table is not larger than the current one, or some
slot of the current one is free or holds the URI, and a slot that is shown like
the URI is its entry in the worker's table. For a reload: no slot in use lies
outside of the new table. -/
def Keeps (s : Cycle w) : Label w → Prop
  | .account conf c =>
    (conf.maxTopUrls ≤ s.conf.maxTopUrls ∨ ∃ i < s.conf.maxTopUrls,
      (s.sh.urls i).hits = 0 ∨ entryHolds crc32 c.request.uri (s.sh.urls i) = true) ∧
    ∀ i < topUrlsMax, InUse (s.sh.urls i) → shownUrl R (text (s.sh.urls i).key) =
      shownUrl R (c.request.uri.take (storedLen c.request.uri)) →
        i < conf.maxTopUrls ∧ entryHolds crc32 c.request.uri (s.sh.urls i) = true
  | .reload conf => ∀ i < topUrlsMax, InUse (s.sh.urls i) → i < conf.maxTopUrls

/-- The URLs of the slots with hits, as the document shows them. -/
def publishedUrls (sh : Shctx w) : List Bytes :=
  (sortTop (topViews sh.urls topUrlsMax)).map fun v => shownUrl R (text v.key)

/-- The member `top_urls` of the section shows every URL once, and not more of
them than the configuration allows. -/
def RespectsTable (s : Cycle w) : Prop :=
  ∃ entries, (requestsValue R s.sh).at [ascii "top_urls"] = some (.array entries) ∧
    (entries.map fun v => v.at [ascii "url"]).Nodup ∧ entries.length ≤ s.conf.maxTopUrls

theorem requestsValue_topUrls (sh : Shctx w) : (requestsValue R sh).at [ascii "top_urls"] =
    some (.array ((sortTop (topViews sh.urls topUrlsMax)).map (topEntryValue R "url"))) := by
  simp [requestsValue, fields, record, Value.at, ascii, topEntriesValue]

theorem topEntryValue_url (v : TopView w) :
    (topEntryValue R "url" v).at [ascii "url"] = some (.string (shownUrl R (text v.key))) := by
  simp [topEntryValue, fields, record, Value.at, name, shownUrl]

theorem respectsTable_iff (s : Cycle w) : RespectsTable R s ↔
    (publishedUrls R s.sh).Nodup ∧ (publishedUrls R s.sh).length ≤ s.conf.maxTopUrls := by
  have hUrls : ((sortTop (topViews s.sh.urls topUrlsMax)).map (topEntryValue R "url")).map
      (fun v => v.at [ascii "url"]) = (publishedUrls R s.sh).map fun url => some (.string url) := by
    simp only [publishedUrls, List.map_map]
    exact List.map_congr_left fun v _ => topEntryValue_url R v
  have hInjective : Function.Injective fun url => some (Value.string url) :=
    fun _ _ h => Value.string.inj (Option.some.inj h)
  have hLength : ((sortTop (topViews s.sh.urls topUrlsMax)).map (topEntryValue R "url")).length =
      (publishedUrls R s.sh).length := by
    rw [publishedUrls, List.length_map, List.length_map]
  constructor
  · rintro ⟨entries, hEntries, hDistinct, hSize⟩
    obtain rfl := Value.array.inj (Option.some.inj ((requestsValue_topUrls R s.sh).symm.trans hEntries))
    rw [hUrls, List.nodup_map_iff hInjective] at hDistinct
    exact ⟨hDistinct, hLength ▸ hSize⟩
  · rintro ⟨hDistinct, hSize⟩
    refine ⟨_, requestsValue_topUrls R s.sh, ?_, hLength ▸ hSize⟩
    rwa [hUrls, List.nodup_map_iff hInjective]

section Search

variable {entries : Nat → TopEntry w} {capacity i : Nat}

theorem chooseSlot_of_entry {key : Bytes} (hi : i < capacity)
    (hHolds : entryHolds crc32 key (entries i) = true)
    (hOnly : ∀ j < capacity, entryHolds crc32 key (entries j) = true → j = i) :
    (chooseSlot crc32 entries capacity key).slot = i :=
  scan_slot_of_unique hi hHolds (fun j hj => hOnly j (List.mem_range.mp hj))
    (Or.inl (List.mem_range.mpr hi))

theorem chooseSlot_of_free {key : Bytes} (hi : i < capacity) (hFree : (entries i).hits = 0)
    (hNone : ∀ j < capacity, entryHolds crc32 key (entries j) = false) :
    (chooseSlot crc32 entries capacity key).slot ≤ i := by
  have hSelects : Selects (fun e : TopEntry w => e.hits.toNat) (entryHolds crc32 key) capacity entries
      (chooseSlot crc32 entries capacity key) :=
    scan_selects (Nat.zero_lt_of_lt hi) (fun j _ => Nat.le_sub_one_of_lt (entries j).hits.isLt)
      fun j hj _ => hNone j hj
  cases hChoice : chooseSlot crc32 entries capacity key with
  | found j =>
    rw [hChoice] at hSelects
    obtain ⟨hj, hHolds, -⟩ := hSelects
    rw [hNone j hj] at hHolds
    cases hHolds
  | rewrite j =>
    rw [hChoice] at hSelects
    have hZero : (entries i).hits.toNat = 0 := by simp [hFree]
    obtain ⟨-, -, ⟨-, hFirst⟩ | ⟨hFull, -⟩⟩ := hSelects
    · exact Nat.le_of_not_lt fun hLess => hFirst i hLess hZero
    · exact absurd hZero (hFull i hi)

theorem updateTop_slot {c : TopCall w} (hPlain : ∀ i < capacity, Terminated (entries i))
    (hCapacity : 0 < capacity) (hKey : c.key ≠ []) (hNul : (0 : UInt8) ∉ c.key) :
    (chooseSlot crc32 entries capacity c.key).slot < capacity ∧ ∃ e : TopEntry w, Terminated e ∧
      text e.key = c.key.take (storedLen c.key) ∧ updateTop crc32 true entries capacity c =
        Function.update entries (chooseSlot crc32 entries capacity c.key).slot e := by
  have hGuard : ¬ (!true || c.key.length == 0 || capacity == 0) = true := by
    simp [hKey, Nat.ne_of_gt hCapacity]
  have hSlot : (chooseSlot crc32 entries capacity c.key).slot < capacity ∧ ∀ i,
      chooseSlot crc32 entries capacity c.key = .found i → entryHolds crc32 c.key (entries i) = true :=
    scan_slot (fun i hi => List.mem_range.mp hi) hCapacity le_rfl
  refine ⟨hSlot.1, ?_⟩
  rw [updateTop, if_neg hGuard]
  cases hChoice : chooseSlot crc32 entries capacity c.key with
  | found i =>
    have hRange := hSlot.1
    rw [hChoice] at hRange
    have hHolds := (entryHolds_iff crc32 hNul (hPlain i hRange)).mp (hSlot.2 i hChoice)
    refine ⟨_, terminated_applyOps (hPlain i hRange), ?_, rfl⟩
    rw [(applyOps_identity _ _).1]
    exact congrArg Prod.snd hHolds
  | rewrite i =>
    refine ⟨_, terminated_applyOps (terminated_freshEntry crc32 hNul), ?_, rfl⟩
    rw [(applyOps_identity _ _).1]
    exact congrArg Prod.snd (entryId_freshEntry crc32 hNul)

end Search

/-- The slots in use are shown differently and lie inside the current table. -/
structure Listed (s : Cycle w) : Prop where
  terminated : ∀ i < topUrlsMax, Terminated (s.sh.urls i)
  inUse : ∀ i < topUrlsMax, Occupied (s.sh.urls i) → InUse (s.sh.urls i)
  inside : ∀ i < topUrlsMax, InUse (s.sh.urls i) → i < s.conf.maxTopUrls
  distinct : ∀ i < topUrlsMax, ∀ j < topUrlsMax, InUse (s.sh.urls i) → InUse (s.sh.urls j) →
    shownUrl R (text (s.sh.urls i).key) = shownUrl R (text (s.sh.urls j).key) → i = j

theorem listed_start (conf : MainConf w) : Listed R (start conf) := by
  have hEmpty : ∀ i, ¬ InUse ((start conf).sh.urls i) :=
    fun i h => h (text_fill List.not_mem_nil keyLen)
  exact ⟨fun i _ => terminated_zeroedEntry, fun i _ h => absurd rfl h,
    fun i _ h => absurd h (hEmpty i), fun i _ j _ h => absurd h (hEmpty i)⟩

theorem Listed.put {s : Cycle w} (h : Listed R s) {sh : Shctx w} {slot : Nat} {e : TopEntry w}
    (hTerminated : Terminated e) (hInUse : InUse e) (hInside : slot < s.conf.maxTopUrls)
    (hOnly : ∀ i < topUrlsMax, InUse (s.sh.urls i) →
      shownUrl R (text (s.sh.urls i).key) = shownUrl R (text e.key) → i = slot)
    (hTable : sh.urls = Function.update s.sh.urls slot e) : Listed R { s with sh := sh } := by
  have hSelf : sh.urls slot = e := by rw [hTable, Function.update_self]
  have hRest : ∀ i, i ≠ slot → sh.urls i = s.sh.urls i := fun i hi => by
    rw [hTable, Function.update_of_ne hi]
  constructor
  · intro i hi
    rcases eq_or_ne i slot with rfl | hOther
    · exact hSelf ▸ hTerminated
    · exact hRest i hOther ▸ h.terminated i hi
  · intro i hi hOccupied
    rcases eq_or_ne i slot with rfl | hOther
    · exact hSelf ▸ hInUse
    · rw [hRest i hOther] at hOccupied ⊢
      exact h.inUse i hi hOccupied
  · intro i hi hiInUse
    rcases eq_or_ne i slot with rfl | hOther
    · exact hInside
    · rw [hRest i hOther] at hiInUse
      exact h.inside i hi hiInUse
  · intro i hi j hj hiInUse hjInUse hSame
    rcases eq_or_ne i slot with rfl | hiOther
    · rcases eq_or_ne j i with rfl | hjOther
      · rfl
      · rw [hRest j hjOther] at hjInUse hSame
        rw [hSelf] at hSame
        exact (hOnly j hj hjInUse hSame.symm).symm
    · rw [hRest i hiOther] at hiInUse hSame
      rcases eq_or_ne j slot with rfl | hjOther
      · rw [hSelf] at hSame
        exact hOnly i hi hiInUse hSame
      · rw [hRest j hjOther] at hjInUse hSame
        exact h.distinct i hi j hj hiInUse hjInUse hSame

section Call

variable {s : Cycle w} {conf : MainConf w} {uri : Bytes}

theorem take_storedLen_ne_nil (hUri : uri ≠ []) : uri.take (storedLen uri) ≠ [] := by
  have hPositive : 0 < uri.length := List.length_pos_iff.mpr hUri
  rw [Ne, List.take_eq_nil_iff, not_or]
  exact ⟨by simp only [storedLen, keyLen]; omega, hUri⟩

theorem Listed.text_entry (h : Listed R s) (hNul : (0 : UInt8) ∉ uri) {i : Nat} (hi : i < topUrlsMax)
    (hHolds : entryHolds crc32 uri (s.sh.urls i) = true) :
    text (s.sh.urls i).key = uri.take (storedLen uri) :=
  congrArg Prod.snd ((entryHolds_iff crc32 hNul (h.terminated i hi)).mp hHolds)

theorem Listed.chosen (h : Listed R s) (hNul : (0 : UInt8) ∉ uri) (hUri : uri ≠ [])
    (hMax : conf.maxTopUrls ≤ topUrlsMax) {i : Nat} (hi : i < conf.maxTopUrls)
    (hHolds : entryHolds crc32 uri (s.sh.urls i) = true) :
    (chooseSlot crc32 s.sh.urls conf.maxTopUrls uri).slot = i := by
  refine chooseSlot_of_entry crc32 hi hHolds fun j hj hAlso => ?_
  have hiText := h.text_entry R crc32 hNul (hi.trans_le hMax) hHolds
  have hjText := h.text_entry R crc32 hNul (hj.trans_le hMax) hAlso
  have hPrefix := take_storedLen_ne_nil hUri
  exact h.distinct j (hj.trans_le hMax) i (hi.trans_le hMax) (hjText.trans_ne hPrefix)
    (hiText.trans_ne hPrefix) (congrArg _ (hjText.trans hiText.symm))

theorem Listed.chosen_inside (h : Listed R s) (hNul : (0 : UInt8) ∉ uri) (hUri : uri ≠ [])
    (hMax : conf.maxTopUrls ≤ topUrlsMax)
    (hSlot : (chooseSlot crc32 s.sh.urls conf.maxTopUrls uri).slot < conf.maxTopUrls)
    (hRoom : conf.maxTopUrls ≤ s.conf.maxTopUrls ∨ ∃ i < s.conf.maxTopUrls,
      (s.sh.urls i).hits = 0 ∨ entryHolds crc32 uri (s.sh.urls i) = true) :
    (chooseSlot crc32 s.sh.urls conf.maxTopUrls uri).slot < s.conf.maxTopUrls := by
  rcases hRoom with hSmaller | ⟨i, hi, hFree⟩
  · exact hSlot.trans_le hSmaller
  · by_cases hHeld : ∃ j < conf.maxTopUrls, entryHolds crc32 uri (s.sh.urls j) = true
    · obtain ⟨j, hj, hHolds⟩ := hHeld
      have hInUse : InUse (s.sh.urls j) :=
        (h.text_entry R crc32 hNul (hj.trans_le hMax) hHolds).trans_ne (take_storedLen_ne_nil hUri)
      rw [h.chosen R crc32 hNul hUri hMax hj hHolds]
      exact h.inside j (hj.trans_le hMax) hInUse
    · have hNone : ∀ j < conf.maxTopUrls, entryHolds crc32 uri (s.sh.urls j) = false :=
        fun j hj => Bool.eq_false_iff.mpr fun hHolds => hHeld ⟨j, hj, hHolds⟩
      rcases Nat.lt_or_ge i conf.maxTopUrls with hiOwn | hBeyond
      · have hZero := hFree.resolve_right (by rw [hNone i hiOwn]; exact Bool.false_ne_true)
        exact (chooseSlot_of_free crc32 hiOwn hZero hNone).trans_lt hi
      · exact (hSlot.trans_le hBeyond).trans hi

end Call

theorem Listed.account {s : Cycle w} (h : Listed R s) {conf : MainConf w} {c : Call w}
    (hValid : Valid s (.account conf c)) (hKeeps : Keeps R crc32 s (.account conf c)) :
    Listed R { s with sh := accountRequest crc32 conf true c s.sh } := by
  obtain ⟨⟨-, -, hPositive, hMax⟩, hNul⟩ := hValid
  obtain ⟨hRoom, hOwn⟩ := hKeeps
  have hUrls := urls_accountRequest crc32 conf true c s.sh
  rw [Nat.min_eq_left hMax] at hUrls
  rcases eq_or_ne c.request.uri [] with hUri | hUri
  · have hSame : (accountRequest crc32 conf true c s.sh).urls = s.sh.urls :=
      hUrls.trans (updateTop_nil crc32 true _ _ hUri)
    constructor
    · rw [hSame]
      exact h.terminated
    · rw [hSame]
      exact h.inUse
    · rw [hSame]
      exact h.inside
    · rw [hSame]
      exact h.distinct
  · obtain ⟨hSlot, e, hTerminated, hText, hUpdate⟩ := updateTop_slot crc32
      (c := c.topCall c.request.uri) (fun i hi => h.terminated i (hi.trans_le hMax)) hPositive hUri hNul
    rw [show (c.topCall c.request.uri).key = c.request.uri from rfl] at hSlot hText hUpdate
    have hInside := h.chosen_inside R crc32 hNul hUri hMax hSlot hRoom
    refine h.put R hTerminated (hText.trans_ne (take_storedLen_ne_nil hUri)) hInside ?_
      (hUrls.trans hUpdate)
    rintro i hi hiInUse hSame
    obtain ⟨hiOwn, hHolds⟩ := hOwn i hi hiInUse (by rwa [hText] at hSame)
    exact (h.chosen R crc32 hNul hUri hMax hiOwn hHolds).symm

theorem Listed.next {s s' : Cycle w} {label : Label w} (h : Listed R s) (hValid : Valid s label)
    (hKeeps : Keeps R crc32 s label) (hStep : step crc32 s label = some s') : Listed R s' := by
  cases label with
  | account conf c =>
    obtain rfl := Option.some.inj hStep
    exact h.account R crc32 hValid hKeeps
  | reload conf =>
    obtain rfl := Option.some.inj hStep
    exact ⟨h.terminated, h.inUse, hKeeps, h.distinct⟩

theorem text_viewOf {e : TopEntry w} (h : Terminated e) : text (viewOf e).key = text e.key := by
  obtain ⟨s, hNul, hLength, hKey⟩ := h
  have hText : text e.key = s := by rw [hKey, text_fill hNul]
  rw [viewOf, cpystrn, hText, List.take_of_length_le (by omega), text_fill hNul]

def shownSlots (sh : Shctx w) : List Nat :=
  (List.range topUrlsMax).filter fun i => (sh.urls i).hits ≠ 0

theorem mem_shownSlots {sh : Shctx w} {i : Nat} :
    i ∈ shownSlots sh ↔ i < topUrlsMax ∧ Occupied (sh.urls i) := by
  simp [shownSlots, Occupied]

theorem publishedUrls_perm {s : Cycle w} (h : Listed R s) : (publishedUrls R s.sh).Perm
    ((shownSlots s.sh).map fun i => shownUrl R (text (s.sh.urls i).key)) := by
  have hViews : (topViews s.sh.urls topUrlsMax).map (fun v => shownUrl R (text v.key)) =
      (shownSlots s.sh).map fun i => shownUrl R (text (s.sh.urls i).key) := by
    rw [topViews, List.map_map]
    refine List.map_congr_left fun i hi => ?_
    exact congrArg _ (text_viewOf (h.terminated i (mem_shownSlots.mp hi).1))
  rw [publishedUrls, ← hViews]
  exact (sortTop_perm _).map _

theorem Listed.respects {s : Cycle w} (h : Listed R s) : RespectsTable R s := by
  have hSlots : (shownSlots s.sh).Nodup := List.nodup_range.filter _
  rw [respectsTable_iff]
  constructor
  · rw [(publishedUrls_perm R h).nodup_iff]
    refine hSlots.map_on fun i hi j hj hSame => ?_
    obtain ⟨hi, hiOccupied⟩ := mem_shownSlots.mp hi
    obtain ⟨hj, hjOccupied⟩ := mem_shownSlots.mp hj
    exact h.distinct i hi j hj (h.inUse i hi hiOccupied) (h.inUse j hj hjOccupied) hSame
  · have hInside : shownSlots s.sh ⊆ List.range s.conf.maxTopUrls := by
      intro i hi
      obtain ⟨hi, hOccupied⟩ := mem_shownSlots.mp hi
      exact List.mem_range.mpr (h.inside i hi (h.inUse i hi hOccupied))
    have hLength := (hSlots.subperm hInside).length_le
    rw [List.length_range] at hLength
    rwa [(publishedUrls_perm R h).length_eq, List.length_map]

/-- What `json_requests` writes is its value, and the list in it fits the
current table. -/
theorem top_urls_respect_table (conf : MainConf w) {s : Cycle w}
    (h : Reaches (step crc32) (fun s l => Valid s l ∧ Keeps R crc32 s l) (start conf) s) :
    (∀ env : Env w, Renders (env.urlViews = true ∧ env.userAgentViews = true)
      (jsonRequests R env s.sh) (requestsValue R s.sh).text) ∧ RespectsTable R s := by
  have hListed : Listed R s := h.invariant (listed_start R conf)
    fun _ _ _ hInv hGuard hStep => hInv.next R crc32 hGuard.1 hGuard.2 hStep
  exact ⟨fun env => renders_requests R And.left And.right s.sh, hListed.respects R⟩

instance (conf : MainConf w) : Decidable (Accepted conf) :=
  decidable_of_iff (minInterval ≤ conf.refreshInterval.toNat ∧ minInterval ≤ conf.resolution.toNat ∧
    0 < conf.maxTopUrls ∧ conf.maxTopUrls ≤ topUrlsMax) ⟨fun h => ⟨h.1, h.2.1, h.2.2⟩,
      fun h => ⟨h.refreshInterval, h.resolution, h.maxTopUrls⟩⟩

instance (s : Cycle w) : ∀ label, Decidable (Valid s label)
  | .account .. => inferInstanceAs (Decidable (_ ∧ _))
  | .reload _ => inferInstanceAs (Decidable (Accepted _))

instance (e : TopEntry w) : Decidable (InUse e) := inferInstanceAs (Decidable (text e.key ≠ []))

instance (s : Cycle w) : ∀ label, Decidable (Keeps R crc32 s label)
  | .account .. => inferInstanceAs (Decidable (_ ∧ ∀ i < topUrlsMax, _))
  | .reload _ => inferInstanceAs (Decidable (∀ i < topUrlsMax, _))

/-- The checksums of the two URIs below. -/
def crc32OfPaths (key : Bytes) : BitVec 32 :=
  if key = ascii "/a" then 0x69707b5c else if key = ascii "/b" then 0xf0792ae6 else 0

def tableOf (n : Nat) : MainConf 64 := { withDefaults createMainConf with maxTopUrls := n }

def get (uri : String) : Call 64 where
  request := ⟨1710000000, 0, 200, 10, 2, false, 1, ascii uri, none, []⟩
  clock := ⟨1710000000, 3⟩
  worker := ⟨0, 4000⟩

/-- Two URLs in a table of two slots, then a larger table. -/
def grown : List (Label 64) :=
  [.account (tableOf 2) (get "/a"), .account (tableOf 2) (get "/b"), .reload (tableOf 3),
    .account (tableOf 3) (get "/b")]

theorem top_urls_respect_grown_table : ∃ s : Cycle 64,
    run (step crc32OfPaths) (fun s l => Valid s l ∧ Keeps decimals crc32OfPaths s l)
      (start (tableOf 2)) grown = some s ∧ RespectsTable decimals s := by
  have hRun : (run (step crc32OfPaths) (fun s l => Valid s l ∧ Keeps decimals crc32OfPaths s l)
      (start (tableOf 2)) grown).isSome = true := by
    decide +kernel
  obtain ⟨s, hs⟩ := Option.isSome_iff_exists.mp hRun
  exact ⟨s, hs, (top_urls_respect_table decimals crc32OfPaths (tableOf 2) (.of_run hs)).2⟩

/-- Two URLs in a table of two slots, then a table of one slot: the reader
still shows the second slot, and the writer does not find its URL any more. -/
def shrunk : List (Label 64) :=
  [.account (tableOf 2) (get "/a"), .account (tableOf 2) (get "/b"), .reload (tableOf 1),
    .account (tableOf 1) (get "/b")]

theorem shrunk_table_repeats_url : ∃ s : Cycle 64,
    Reaches (step crc32OfPaths) Valid (start (tableOf 2)) s ∧ s.conf.maxTopUrls = 1 ∧
      publishedUrls decimals s.sh = [ascii "/b", ascii "/b"] ∧ ¬ RespectsTable decimals s := by
  have hRun : (run (step crc32OfPaths) Valid (start (tableOf 2)) shrunk).map (fun s =>
      (s.conf.maxTopUrls, publishedUrls decimals s.sh)) =
        some (1, [ascii "/b", ascii "/b"]) := by
    decide +kernel
  obtain ⟨s, hs, hEnd⟩ := Option.map_eq_some_iff.mp hRun
  obtain ⟨hSize, hUrls⟩ := Prod.mk.inj hEnd
  refine ⟨s, .of_run hs, hSize, hUrls, fun h => ?_⟩
  obtain ⟨hDistinct, -⟩ := (respectsTable_iff decimals s).mp h
  rw [hUrls] at hDistinct
  revert hDistinct
  decide

end HttpMonitoring.TopUrls
