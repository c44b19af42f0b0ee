import HttpMonitoring.DocumentTrees

/-!
# The data of the dashboard page

`poll`, `apply` and `merge` of the script, from the bodies that the server
hands over to the data that the page shows. That a number is zero as a double
is a parameter.
-/

namespace HttpMonitoring.PageData

open Library.JsonText Library.JsonParser Library.DeepMerge Accounting JsonWriter JsonNames JsonSections JsonDocument
  JsonAnswers LiveDocument Senders Handlers ReadAnswers DocumentTrees

variable {w : Nat}

section Script

variable (isZero : Text → Bool)

def truthy : Value → Bool
  | .number digits => !isZero digits
  | .string body => body ≠ []
  | .bool b => b
  | .array _ => true
  | .object _ => true

/-- A value as a condition; a property that is not there is `undefined`. -/
def holds : Option (Doc Text Value) → Bool
  | none => false
  | some (.leaf v) => truthy isZero v
  | some (.node _) => true

/-- `S`, and what `apply` and `setConn` put beside it. -/
structure Page where
  data : Option Data
  hist : Doc Text Value
  stamp : Option (Doc Text Value)
  live : Bool

def Page.start : Page := ⟨none, .leaf (.array []), none, false⟩

def merge (a b : Data) : Data := Doc.mergeMembers (truthy isZero) a b

def setConn (ok : Bool) (page : Page) : Page := { page with live := ok }

/-- `apply`, up to the call of `render`. -/
def apply (d : Data) (ok : Bool) (page : Page) : Page :=
  let history := Doc.get d (ascii "history")
  let data := match page.data with
    | none => d
    | some data => if holds isZero history then d else merge isZero data d
  setConn ok { page with
    data := some data
    hist := if holds isZero history then history.getD page.hist else page.hist
    stamp := Doc.get d (ascii "timestamp") }

/-- What arrives at the page: the answer to `poll` with its status, or a sign
from the event source. -/
inductive Input
  | answer (ok : Bool) (body : Bytes)
  | failed
  | metrics (data : Bytes)
  | opened
  | error

/-- The object in a text. -/
def parseObject (t : Bytes) : Option Data :=
  match parse t with
  | some (.object members) => some (treeMembers members)
  | _ => none

/-- A text that is no object stops the handler of the event, and the catch of
`poll` shows that it is offline. -/
def receive (page : Page) : Input → Page
  | .answer ok body =>
    match if ok then parseObject body else none with
    | some d => apply isZero d true page
    | none => setConn false page
  | .failed => setConn false page
  | .metrics data =>
    match parseObject data with
    | some d => apply isZero d true page
    | none => page
  | .opened => setConn true page
  | .error => setConn false page

end Script

/-- Answers to `poll`, among them the bodies of the full endpoint, and events with
the data of the live endpoint. -/
inductive Heard (w : Nat)
  | polled (env : Env w) (sh : Shctx w)
  | refused (body : Bytes)
  | failed
  | event (clock : Clock w) (sequence : BitVec w) (sh : Shctx w)
  | opened
  | error

section Inputs

variable (R : Vslprintf w)

def Heard.input : Heard w → Input
  | polled env sh => .answer true (jsonAnswer R env sh .apiFull).out
  | refused body => .answer false body
  | failed => .failed
  | event clock k sh => .metrics (liveValue R clock k sh).text
  | opened => .opened
  | error => .error

/-- An answer with a document was written to its end, over a zone without
control bytes in its names. -/
def Heard.Sound : Heard w → Prop
  | polled env sh => CleanZone sh ∧ (jsonAnswer R env sh .apiFull).failed = false
  | _ => True

end Inputs

/-- The zone of the last answer, the zone of the last event since, and how the
last exchange went. -/
structure Known (w : Nat) where
  poll : Option (Env w × Shctx w)
  event : Option (Clock w × BitVec w × Shctx w)
  live : Bool

def Known.start : Known w := ⟨none, none, false⟩

def Known.note (known : Known w) : Heard w → Known w
  | .polled env sh => ⟨some (env, sh), none, true⟩
  | .refused _ => { known with live := false }
  | .failed => { known with live := false }
  | .event clock k sh => { known with event := some (clock, k, sh), live := true }
  | .opened => { known with live := true }
  | .error => { known with live := false }

section Showing

variable (R : Vslprintf w)

def fullTree (p : Env w × Shctx w) : Doc Text Value := tree (.object (documentMembers R p.1 p.2 .apiFull))

def liveTree (e : Clock w × BitVec w × Shctx w) : Doc Text Value := tree (liveValue R e.1 e.2.1 e.2.2)

/-- What a path stands for: the figure of the last event, and where events have
none, that of the last answer. -/
def Known.leaf (known : Known w) (path : List Text) : Option Value :=
  (known.event.bind fun e => Doc.leafAt (some (liveTree R e)) path).or
    (known.poll.bind fun p => Doc.leafAt (some (fullTree R p)) path)

/-- The page shows this and nothing else. -/
structure Shows (known : Known w) (page : Page) : Prop where
  leaves : ∀ path, Doc.leafAt (page.data.map .node) path = known.leaf R path
  hist : page.hist = (known.poll.map fun p => tree (historyValue R p.2)).getD (.leaf (.array []))
  stamp : page.stamp = (known.leaf R [ascii "timestamp"]).map .leaf
  live : page.live = known.live

end Showing

section Parsing

variable {R : Vslprintf w}

theorem fullTree_eq (env : Env w) (sh : Shctx w) :
    fullTree R (env, sh) = .node (treeMembers (documentMembers R env sh .apiFull)) := by
  rw [fullTree, tree]

theorem parseObject_of_parse {t : Bytes} {members : List (Text × Value)} (h : parse t = some (.object members)) :
    parseObject t = some (treeMembers members) := by
  rw [parseObject, h]

theorem parseObject_answer (hR : R.Numeric) {env : Env w} {sh : Shctx w} (hClean : CleanZone sh)
    (hWritten : (jsonAnswer R env sh .apiFull).failed = false) :
    parseObject (jsonAnswer R env sh .apiFull).out = some (treeMembers (documentMembers R env sh .apiFull)) := by
  have hListed : Endpoint.apiFull ∈ jsonEndpoints := by decide
  exact parseObject_of_parse (parse_jsonAnswer hR hClean hListed hWritten)

theorem parseObject_live (hR : R.Numeric) (clock : Clock w) (k : BitVec w) (sh : Shctx w) :
    ∃ d, parseObject (liveValue R clock k sh).text = some d ∧ liveTree R (clock, k, sh) = .node d :=
  ⟨_, parseObject_of_parse (parse_live hR clock k sh), by rw [liveTree, liveValue, fields, record, tree]⟩

theorem get_history (env : Env w) (sh : Shctx w) :
    Doc.get (treeMembers (documentMembers R env sh .apiFull)) (ascii "history") = some (tree (historyValue R sh)) :=
  get_section R env sh .history

theorem reach_timestamp (env : Env w) (sh : Shctx w) :
    Doc.reach (some (fullTree R (env, sh))) [ascii "timestamp"] = some (.leaf (.number (R.signed env.clock.sec))) := by
  have hNames := nodup_documentKeys R env sh
  have hMem : (ascii "timestamp", Value.number (R.signed env.clock.sec)) ∈ documentMembers R env sh .apiFull :=
    List.mem_append_left _ (List.mem_of_getElem? (i := 2) rfl)
  rw [← names_treeMembers] at hNames
  rw [fullTree_eq, Doc.reach_node, Doc.get_of_mem hNames (mem_treeMembers hMem), tree]

theorem reach_live_timestamp (e : Clock w × BitVec w × Shctx w) :
    Doc.reach (some (liveTree R e)) [ascii "timestamp"] = some (.leaf (.number (R.signed e.1.sec))) := by
  rw [liveTree, liveValue, fields, record, tree, Doc.reach_node]
  refine Doc.get_of_mem (by rw [names_treeMembers]; simp [ascii]) ?_
  rw [treeMembers_eq]
  exact List.mem_of_getElem? (i := 1) (by simp [tree])

theorem reach_live_history (e : Clock w × BitVec w × Shctx w) :
    Doc.reach (some (liveTree R e)) [ascii "history"] = none := by
  rw [liveTree, liveValue, fields, record, tree, Doc.reach_node]
  refine Doc.get_eq_none ?_
  rw [names_treeMembers]
  simp [ascii]

end Parsing

section Steps

variable {R : Vslprintf w} {isZero : Text → Bool} {known : Known w} {page : Page}

/-- The page shows what is known, and the next event fits. -/
structure Keeps (R : Vslprintf w) (known : Known w) (page : Page) : Prop where
  shows : Shows R known page
  fits : ∀ e, Doc.Fits (page.data.map .node) (liveTree R e)

theorem keeps_start : Keeps R (Known.start : Known w) Page.start where
  shows := ⟨fun _ => rfl, rfl, rfl, rfl⟩
  fits _ _ _ _ _ hReach := by cases hReach

theorem Keeps.setConn (h : Keeps R known page) (ok : Bool) :
    Keeps R { known with live := ok } (setConn ok page) where
  shows := ⟨h.shows.leaves, h.shows.hist, h.shows.stamp, rfl⟩
  fits := h.fits

theorem keeps_answer (env : Env w) (sh : Shctx w) :
    Keeps R ⟨some (env, sh), none, true⟩
      (apply isZero (treeMembers (documentMembers R env sh .apiFull)) true page) := by
  have hHistory : holds isZero (some (tree (historyValue R sh))) = true := by
    rw [historyValue, tree, holds, truthy]
  have hData : (apply isZero (treeMembers (documentMembers R env sh .apiFull)) true page).data =
      some (treeMembers (documentMembers R env sh .apiFull)) := by
    simp only [apply, setConn, get_history, hHistory, if_true]
    split <;> rfl
  refine ⟨⟨fun path => ?_, ?_, ?_, rfl⟩, fun e => ?_⟩
  · rw [hData, Option.map_some, ← fullTree_eq]
    rfl
  · simp only [apply, setConn, get_history, hHistory, if_true]
    rfl
  · have hStamp : Doc.get (treeMembers (documentMembers R env sh .apiFull)) (ascii "timestamp") =
        some (.leaf (.number (R.signed env.clock.sec))) := by
      rw [← Doc.reach_node, ← fullTree_eq, reach_timestamp]
    have hLeaf : Doc.leafAt (some (fullTree R (env, sh))) [ascii "timestamp"] =
        some (.number (R.signed env.clock.sec)) := by
      rw [Doc.leafAt, reach_timestamp]
    simp only [apply, setConn, hStamp, Known.leaf, Option.bind_none, Option.bind_some, hLeaf]
    rfl
  · rw [hData, Option.map_some, ← fullTree_eq]
    exact fits_live R env sh e.1 e.2.1 e.2.2

theorem shape_liveTree (e e' : Clock w × BitVec w × Shctx w) : (liveTree R e).shape = (liveTree R e').shape := by
  rw [liveTree, liveTree, shape_live, shape_live]

/-- The new event hides the figures of the one before, which has its shape. -/
theorem leaf_event (known : Known w) (e : Clock w × BitVec w × Shctx w) (path : List Text) :
    Known.leaf R { known with event := some e, live := true } path =
      (Doc.leafAt (some (liveTree R e)) path).or (known.leaf R path) := by
  cases hEvent : known.event with
  | none => simp only [Known.leaf, hEvent, Option.bind_some, Option.bind_none, Option.none_or]
  | some e' =>
    simp only [Known.leaf, hEvent, Option.bind_some]
    exact (Doc.leafAt_or_of_shape (shape_liveTree e e') path _).symm

theorem get_live_history {e : Clock w × BitVec w × Shctx w} {d : Data} (hLive : liveTree R e = .node d) :
    Doc.get d (ascii "history") = none := by
  rw [← Doc.reach_node, ← hLive, reach_live_history]

/-- An event is merged into the data, or it is the first data. -/
theorem data_event (isZero : Text → Bool) (hR : R.Numeric) (h : Keeps R known page)
    (e : Clock w × BitVec w × Shctx w) {d : Data}
    (hLive : liveTree R e = .node d) :
    (∀ path, Doc.leafAt ((apply isZero d true page).data.map .node) path =
      (Doc.leafAt (some (liveTree R e)) path).or (known.leaf R path)) ∧
    ∀ e', Doc.Fits ((apply isZero d true page).data.map .node) (liveTree R e') := by
  have hLeaves := h.shows.leaves
  have hFits := h.fits e
  cases hData : page.data with
  | none =>
    have hNothing : ∀ path, known.leaf R path = none := by
      intro path
      rw [← hLeaves, hData]
      rfl
    simp only [apply, setConn, hData, Option.map_some, hNothing, Option.or_none, ← hLive]
    exact ⟨fun _ => trivial, fun e' => Doc.fits_of_shape (shape_liveTree e e')⟩
  | some data =>
    rw [hData, Option.map_some] at hFits hLeaves
    have hDistinct : (liveTree R e).Distinct := distinct_tree (wellFormed_live hR e.1 e.2.1 e.2.2)
    have hMerged : (apply isZero d true page).data.map Doc.node =
        some (Doc.mergeValue (truthy isZero) (some (.node data)) (liveTree R e)) := by
      have hHolds : holds isZero none = false := rfl
      simp only [apply, setConn, hData, get_live_history hLive, hHolds, Bool.false_eq_true, if_false,
        Option.map_some, merge]
      rw [hLive, Doc.mergeValue]
    rw [hMerged]
    constructor
    · intro path
      rw [Doc.leafAt_mergeValue _ hDistinct hFits, hLeaves]
    · intro e'
      exact hFits.merge hDistinct (shape_liveTree e e')

theorem keeps_event (hR : R.Numeric) (h : Keeps R known page) (e : Clock w × BitVec w × Shctx w) {d : Data}
    (hLive : liveTree R e = .node d) :
    Keeps R { known with event := some e, live := true } (apply isZero d true page) := by
  obtain ⟨hLeaves, hFits⟩ := data_event isZero hR h e hLive
  refine ⟨⟨fun path => ?_, ?_, ?_, rfl⟩, hFits⟩
  · rw [hLeaves, leaf_event]
  · have hHolds : holds isZero none = false := rfl
    simp only [apply, setConn, get_live_history hLive, hHolds, Bool.false_eq_true, if_false]
    exact h.shows.hist
  · have hStamp : Doc.get d (ascii "timestamp") = some (.leaf (.number (R.signed e.1.sec))) := by
      rw [← Doc.reach_node, ← hLive, reach_live_timestamp]
    rw [leaf_event, Doc.leafAt, reach_live_timestamp]
    exact hStamp

theorem keeps_receive (hR : R.Numeric) (h : Keeps R known page) {heard : Heard w} (hSound : heard.Sound R) :
    Keeps R (known.note heard) (receive isZero page (heard.input R)) := by
  cases heard with
  | polled env sh =>
    have hParsed := parseObject_answer hR hSound.1 hSound.2
    rw [Heard.input, receive, if_pos rfl, hParsed]
    exact keeps_answer env sh
  | refused body => exact h.setConn false
  | failed => exact h.setConn false
  | event clock k sh =>
    obtain ⟨d, hParsed, hLive⟩ := parseObject_live hR clock k sh
    rw [Heard.input, receive, hParsed]
    exact keeps_event hR h (clock, k, sh) hLive
  | opened => exact h.setConn true
  | error => exact h.setConn false

theorem shows_run (hR : R.Numeric) (isZero : Text → Bool) {heard : List (Heard w)} (hSound : ∀ x ∈ heard, x.Sound R) :
    Shows R (heard.foldl Known.note Known.start) ((heard.map (Heard.input R)).foldl (receive isZero) Page.start) := by
  suffices hRun : ∀ (known : Known w) page, Keeps R known page →
      Keeps R (heard.foldl Known.note known) ((heard.map (Heard.input R)).foldl (receive isZero) page) from
    (hRun _ _ keeps_start).shows
  induction heard with
  | nil => exact fun _ _ h => h
  | cons x heard ih =>
    intro known page h
    obtain ⟨hFirst, hRest⟩ := List.forall_mem_cons.mp hSound
    exact ih hRest _ _ (keeps_receive hR h hFirst)

/-- Whatever the page hears, in whatever order, it shows the last full answer
with the figures of the last event since over it, the history of that answer,
and how the last exchange went. -/
theorem page_shows (hR : R.Numeric) (isZero : Text → Bool) {heard : List (Heard w)} (hSound : ∀ x ∈ heard, x.Sound R) :
    Shows R (heard.foldl Known.note Known.start) ((heard.map (Heard.input R)).foldl (receive isZero) Page.start) :=
  shows_run hR isZero hSound

end Steps

/-- Eight requests later. -/
def laterZone : Shctx 64 :=
  { twoPeers with
    requests := { twoPeers.requests with total := 8, status2xx := 7, status5xx := 1 }
    system := { twoPeers.system with usageMilli := 42500 }
    ewmaRpsMilli := 2500 }

/-- An event, an answer, an event a second later, and then the stream breaks off. -/
def brokenStream : List (Heard 64) :=
  let env := env acceptingCore
  [.event env.clock 0 twoPeers, .polled env twoPeers, .event ⟨env.clock.sec + 1, 0⟩ 1 laterZone, .error]

theorem page_shows_broken_stream :
    Shows acceptingCore.vslprintf
      ⟨some (env acceptingCore, twoPeers), some (⟨(env acceptingCore).clock.sec + 1, 0⟩, 1, laterZone), false⟩
      ((brokenStream.map (Heard.input acceptingCore.vslprintf)).foldl
        (receive fun digits => digits.all fun c => c = 48 || c = 46) Page.start) := by
  have hSound : ∀ x ∈ brokenStream, x.Sound acceptingCore.vslprintf := by
    simp only [brokenStream, List.forall_mem_cons, List.not_mem_nil, false_imp_iff, implies_true, and_true]
    exact ⟨trivial, ⟨clean_twoPeers, written_twoPeers⟩, trivial, trivial⟩
  exact page_shows JsonSize.numeric_decimals _ hSound

end HttpMonitoring.PageData
