import HttpMonitoring.Library.HtmlText

/-!
# The tables of the dashboard

`rows` writes the rows of a parsed document into the markup that it assigns to
`innerHTML`. Numbers, and what the script uses of the browser's strings, are
parameters.
-/

namespace HttpMonitoring.DashboardTables

open Library.HtmlText

variable {ν : Type}

inductive Value (ν : Type)
  | undefined
  | null
  | boolean (b : Bool)
  | number (x : ν)
  | string (s : Units)

/-- An object of `JSON.parse`. -/
structure Row (ν : Type) where
  fields : List (Units × Value ν)
  distinct : (fields.map Prod.fst).Nodup

/-- `x[c]`. -/
def Row.get (x : Row ν) (c : Units) : Value ν := (x.fields.lookup c).getD .undefined

abbrev Inputs := Units → Option Units

/-- The numbers of the script and its operations on strings and arrays. -/
structure Engine (ν : Type) where
  ofNat : Nat → ν
  nan : ν
  isTruthy : ν → Bool
  abs : ν → ν
  atLeast : ν → ν → Bool
  sub : ν → ν → ν
  div : ν → ν → ν
  rem : ν → ν → ν
  toFixed : ν → Nat → Units
  numberText : ν → Units
  parseNumber : Units → ν
  toLowerCase : Units → Units
  localeCompare : Units → Units → ν
  stringify : Row ν → Units
  sort : (Row ν → Row ν → ν) → List (Row ν) → List (Row ν)
  sort_perm : ∀ compare a, (sort compare a).Perm a

namespace Engine

variable (E : Engine ν)

def truthy : Value ν → Bool
  | .undefined => false
  | .null => false
  | .boolean b => b
  | .number x => E.isTruthy x
  | .string s => s ≠ []

def or (v w : Value ν) : Value ν := if E.truthy v then v else w

def toNumber : Value ν → ν
  | .undefined => E.nan
  | .null => E.ofNat 0
  | .boolean b => E.ofNat b.toNat
  | .number x => x
  | .string s => E.parseNumber s

def text : Value ν → Units
  | .undefined => units "undefined"
  | .null => units "null"
  | .boolean b => units (if b then "true" else "false")
  | .number x => E.numberText x
  | .string s => s

def fmt (n : Value ν) (u : Units) : Units :=
  match n with
  | .undefined => units "0" ++ u
  | .null => units "0" ++ u
  | n =>
    let x := E.toNumber n
    if E.atLeast (E.abs x) (E.ofNat (10 ^ 12)) then
      E.toFixed (E.div x (E.ofNat (10 ^ 12))) 2 ++ units "T" ++ u
    else if E.atLeast (E.abs x) (E.ofNat (10 ^ 9)) then
      E.toFixed (E.div x (E.ofNat (10 ^ 9))) 2 ++ units "G" ++ u
    else if E.atLeast (E.abs x) (E.ofNat (10 ^ 6)) then
      E.toFixed (E.div x (E.ofNat (10 ^ 6))) 2 ++ units "M" ++ u
    else if E.atLeast (E.abs x) (E.ofNat (10 ^ 3)) then
      E.toFixed (E.div x (E.ofNat (10 ^ 3))) 2 ++ units "K" ++ u
    else E.toFixed x (if E.isTruthy (E.rem x (E.ofNat 1)) then 2 else 0) ++ u

def bytes (n : Value ν) : Units := E.fmt n (units "B")

def ms (n : Value ν) : Units :=
  let x := E.toNumber n
  E.toFixed (if E.isTruthy x then x else E.ofNat 0) 1 ++ units "ms"

def val (k : Units) (v : Value ν) : Value ν :=
  let zero := .number (E.ofNat 0)
  if units "bytes" <:+: k ∨ k ∈ [units "total", units "used", units "avail", units "free"] then
    .string (E.bytes (E.or v zero))
  else if units "latency" <:+: k then .string (E.ms (E.or v zero))
  else
    match v with
    | .undefined => .string []
    | .null => .string []
    | v => v

/-- What stands between the tags of the cell of column `c`. -/
def markup (x : Row ν) (c : Units) : Units := E.text (E.val c (x.get c))

def openCell (x : Row ν) (c : Units) : Units :=
  units "<td class=\"" ++ (if 36 < (E.text (x.get c)).length then units "truncate" else []) ++
    units "\">"

def cell (x : Row ν) (c : Units) : Units := E.openCell x c ++ E.markup x c ++ units "</td>"

def rowHtml (cols : List Units) (x : Row ν) : Units :=
  units "<tr>" ++ cols.flatMap (E.cell x) ++ units "</tr>"

def tableHtml (cols : List Units) (a : List (Row ν)) : Units :=
  units "<thead><tr>" ++ cols.flatMap (fun c => units "<th>" ++ c ++ units "</th>") ++
    units "</tr></thead><tbody>" ++ a.flatMap (E.rowHtml cols) ++ units "</tbody>"

/-- The order of the rows by the field `s`. -/
def compare (s : Units) (x y : Row ν) : ν :=
  match x.get s with
  | .string t => E.localeCompare t (E.text (y.get s))
  | v => E.sub (E.toNumber (E.or (y.get s) (.number (E.ofNat 0))))
      (E.toNumber (E.or v (.number (E.ofNat 0))))

def passes (inputs : Inputs) (filterId : Option Units) (x : Row ν) : Bool :=
  match filterId.bind inputs with
  | none => true
  | some value =>
    let f := E.toLowerCase value
    f = [] || f <:+: E.toLowerCase (E.stringify x)

/-- The rows in the order of the table. -/
def shown (inputs : Inputs) (data : List (Row ν)) (filterId sortId : Option Units) :
    List (Row ν) :=
  let a := data.filter (E.passes inputs filterId)
  match sortId.bind inputs with
  | none => a
  | some s => if s = [] then a else E.sort (E.compare s) a

/-- What `rows` assigns to `innerHTML`. -/
def rows (inputs : Inputs) (data : List (Row ν)) (cols : List Units)
    (filterId sortId : Option Units) : Units :=
  E.tableHtml cols (E.shown inputs data filterId sortId)

theorem mem_shown_iff (inputs : Inputs) (data : List (Row ν)) (filterId sortId : Option Units)
    (x : Row ν) : x ∈ E.shown inputs data filterId sortId ↔ x ∈ data ∧ E.passes inputs filterId x := by
  rw [← List.mem_filter, shown]
  split
  · rfl
  · split
    · rfl
    · exact (E.sort_perm _ _).mem_iff

/-- The markup in front of the content of a cell. -/
def frontOf (cols : List Units) (before : List (Row ν)) (x : Row ν) (left : List Units) (c : Units) :
    Units :=
  units "<thead><tr>" ++ cols.flatMap (fun c => units "<th>" ++ c ++ units "</th>") ++
    units "</tr></thead><tbody>" ++ before.flatMap (E.rowHtml cols) ++ units "<tr>" ++
    left.flatMap (E.cell x) ++ E.openCell x c

/-- The markup behind the content of a cell. -/
def backOf (cols : List Units) (x : Row ν) (right : List Units) (behind : List (Row ν)) : Units :=
  units "</td>" ++ right.flatMap (E.cell x) ++ units "</tr>" ++ behind.flatMap (E.rowHtml cols) ++
    units "</tbody>"

theorem tableHtml_split {cols left right : List Units} {c : Units} (hCols : cols = left ++ c :: right)
    (before behind : List (Row ν)) (x : Row ν) :
    E.tableHtml cols (before ++ x :: behind) =
      E.frontOf cols before x left c ++ E.markup x c ++ E.backOf cols x right behind := by
  have hRow : E.rowHtml cols x = units "<tr>" ++ left.flatMap (E.cell x) ++ E.openCell x c ++
      E.markup x c ++ units "</td>" ++ right.flatMap (E.cell x) ++ units "</tr>" := by
    rw [rowHtml, hCols, List.flatMap_append, List.flatMap_cons, cell]
    simp only [List.append_assoc]
  rw [tableHtml, List.flatMap_append, List.flatMap_cons, hRow, frontOf, backOf]
  simp only [List.append_assoc]

theorem startsEndTag_backOf (cols : List Units) (x : Row ν) (right : List Units)
    (behind : List (Row ν)) : StartsEndTag (E.backOf cols x right behind) := by
  have hTag : units "</td>" = [60, 47, 116, 100, 62] := by decide
  rw [backOf, hTag]
  simp only [List.cons_append]
  exact ⟨116, _, by decide, rfl⟩

/-- A column whose values `val` hands on as they are. -/
def Plain (k : Units) : Prop :=
  ¬ (units "bytes" <:+: k ∨ k ∈ [units "total", units "used", units "avail", units "free"]) ∧
    ¬ units "latency" <:+: k

instance (k : Units) : Decidable (Plain k) := inferInstanceAs (Decidable (_ ∧ _))

theorem markup_eq {k : Units} (hPlain : Plain k) {x : Row ν} {s : Units} (hString : x.get k = .string s) :
    E.markup x k = s := by
  have hVal : E.val k (.string s) = .string s := by
    rw [val, if_neg hPlain.1, if_neg hPlain.2]
    · exact nofun
    · exact nofun
  rw [markup, hString, hVal, text]

variable (refs : References)

/-- For every string in the column `key` of a table, the markup between the tags
of its cell is parsed as one text node with this string, or as none if it is empty.
The inside of the cell is parsed on its own; the other columns are numbers in what the
module writes. -/
def ShowsText (cols : List Units) (a : List (Row ν)) (html key : Units) : Prop :=
  ∀ before x behind left right s, a = before ++ x :: behind → cols = left ++ key :: right →
    x.get key = .string s →
    ∃ inside, html = E.frontOf cols before x left key ++ inside ++ E.backOf cols x right behind ∧
      refs.content inside (E.backOf cols x right behind) = some (textNodes s)

theorem showsText_iff {cols : List Units} {key : Units} (hMem : key ∈ cols) (hPlain : Plain key)
    (a : List (Row ν)) : E.ShowsText refs cols a (E.tableHtml cols a) key ↔
      ∀ x ∈ a, ∀ s, x.get key = .string s → refs.Inert s := by
  constructor
  · intro h x hx s hString
    obtain ⟨before, behind, rfl⟩ := List.append_of_mem hx
    obtain ⟨left, right, hCols⟩ := List.append_of_mem hMem
    obtain ⟨inside, hHtml, hContent⟩ := h before x behind left right s rfl hCols hString
    rw [E.tableHtml_split hCols, E.markup_eq hPlain hString, List.append_left_inj,
      List.append_right_inj] at hHtml
    rw [← hHtml] at hContent
    exact (References.content_eq_iff (E.startsEndTag_backOf cols x right behind) s).mp hContent
  · rintro h before x behind left right s rfl hCols hString
    have hInert := h x (List.mem_append_right before List.mem_cons_self) s hString
    refine ⟨s, ?_, ?_⟩
    · rw [E.tableHtml_split hCols, E.markup_eq hPlain hString]
    · exact (References.content_eq_iff (E.startsEndTag_backOf cols x right behind) s).mpr hInert

end Engine

/-- A call of `rows` for a table whose column `key` holds strings of clients. -/
structure Table where
  cols : List Units
  filterId : Option Units
  sortId : Option Units
  key : Units
  listed : key ∈ cols
  plain : Engine.Plain key

def urlTable : Table where
  cols := [units "url", units "hits", units "errors", units "bytes", units "avg_latency"]
  filterId := some (units "urlFilter")
  sortId := some (units "urlSort")
  key := units "url"
  listed := List.mem_cons_self
  plain := by decide

def uaTable : Table where
  cols := [units "user_agent", units "hits", units "errors", units "avg_latency"]
  filterId := none
  sortId := none
  key := units "user_agent"
  listed := List.mem_cons_self
  plain := by decide

def upTable : Table where
  cols := [units "peer", units "requests", units "failures", units "status_4xx",
    units "status_5xx", units "avg_latency"]
  filterId := none
  sortId := none
  key := units "peer"
  listed := List.mem_cons_self
  plain := by decide

/-- What `render` reads of the document for the three tables. -/
structure Document (ν : Type) where
  topUrls : Option (List (Row ν))
  userAgents : Option (List (Row ν))
  upstreams : Option (List (Row ν))

/-- The tables with the rows that `render` passes for them. -/
def Document.tables (d : Document ν) : List (Table × List (Row ν)) :=
  [(urlTable, d.topUrls.getD []), (uaTable, d.userAgents.getD []), (upTable, d.upstreams.getD [])]

namespace Engine

variable (E : Engine ν) (refs : References) (inputs : Inputs)

/-- `rows` of a table shows the strings of its key column as text. -/
def TableShowsText (t : Table) (data : List (Row ν)) : Prop :=
  E.ShowsText refs t.cols (E.shown inputs data t.filterId t.sortId)
    (E.rows inputs data t.cols t.filterId t.sortId) t.key

theorem tableShowsText_iff (t : Table) (data : List (Row ν)) :
    E.TableShowsText refs inputs t data ↔
      ∀ x ∈ data, E.passes inputs t.filterId x → ∀ s, x.get t.key = .string s → refs.Inert s := by
  rw [TableShowsText, rows, showsText_iff E refs t.listed t.plain]
  simp only [mem_shown_iff, and_imp]

/-- The tables show the strings of clients as text exactly if every string they
show is inert. -/
theorem tables_show_text_iff (d : Document ν) :
    (∀ p ∈ d.tables, E.TableShowsText refs inputs p.1 p.2) ↔
      ∀ p ∈ d.tables, ∀ x ∈ p.2, E.passes inputs p.1.filterId x →
        ∀ s, x.get p.1.key = .string s → refs.Inert s :=
  forall₂_congr fun p _ => E.tableShowsText_iff refs inputs p.1 p.2

end Engine

def wholeText (x : Option Int) : Units := units ((x.map toString).getD "NaN")

def quote (s : Units) : Units := units "\"" ++ s ++ units "\""

def valueText : Value (Option Int) → Units
  | .undefined => []
  | .null => units "null"
  | .boolean b => units (if b then "true" else "false")
  | .number x => wholeText x
  | .string s => quote s

/-- Whole numbers, and `none` for what is not a number. -/
def wholeNumbers : Engine (Option Int) where
  ofNat n := some n
  nan := none
  isTruthy x := x ≠ none && x ≠ some 0
  abs x := x.map fun a => (a.natAbs : Int)
  atLeast x y := x.any fun a => y.any fun b => b ≤ a
  sub x y := x.bind fun a => y.map fun b => a - b
  div x y := x.bind fun a => y.map fun b => a / b
  rem x y := x.bind fun a => y.map fun b => a.tmod b
  toFixed x digits := wholeText x ++ if digits = 0 then [] else 46 :: List.replicate digits 48
  numberText := wholeText
  parseNumber s := if s.all isDigit then some (numeral 10 s) else none
  toLowerCase s := s.map fun c => if 65 ≤ c ∧ c ≤ 90 then c + 32 else c
  localeCompare s t := some (if s = t then 0 else if s < t then -1 else 1)
  stringify x := units "\x7b" ++
    (units ",").intercalate (x.fields.map fun f => quote f.1 ++ units ":" ++ valueText f.2) ++
    units "\x7d"
  sort compare a := a.mergeSort fun x y => (compare x y).all fun d => d ≤ 0
  sort_perm _ a := List.mergeSort_perm a _

def startInputs : Inputs := fun id =>
  if id = units "urlFilter" then some [] else if id = units "urlSort" then some (units "hits") else none

def imgPath : Units := units "/<img src=x onerror=alert(1)>"

def imgRow : Row (Option Int) where
  fields := [(units "url", .string imgPath), (units "hits", .number (some 1)),
    (units "errors", .number (some 1)), (units "bytes", .number (some 153)),
    (units "avg_latency", .number (some 0)), (units "last_seen", .number (some 1700000000))]
  distinct := by decide

def imgDocument : Document (Option Int) := ⟨some [imgRow], some [], some []⟩

theorem img_path_opens_tag :
    ¬ ∀ p ∈ imgDocument.tables, wholeNumbers.TableShowsText basicReferences startInputs p.1 p.2 := by
  intro h
  have hTable := h (urlTable, [imgRow]) List.mem_cons_self
  rw [Engine.tableShowsText_iff] at hTable
  have hInert : basicReferences.Inert imgPath :=
    hTable imgRow (List.mem_singleton_self imgRow) (by decide) imgPath rfl
  exact hInert.less (units "img src=x onerror=alert(1)>") ⟨[47], by decide⟩ (Or.inl (by decide))

end HttpMonitoring.DashboardTables
