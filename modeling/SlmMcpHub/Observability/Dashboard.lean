import SlmMcpHub.Library.Double
import SlmMcpHub.Library.Html
import Mathlib.Data.List.Sort
import Mathlib.Data.String.Basic

/-!
# The dashboard

`observability/dashboard.py`: the status of the backends as a page. The names and the states come
from backends, and are escaped; a reader of the page finds the tags of its template and nothing
else.

## Main definitions

* `StatusEntry`, `renderDashboardHtml`
* `Row` — what a row of the page says
* `Shows` — what a reader of the page finds

## Main results

* `scan_page` — how the page is read
* `shows_renderDashboardHtml`
-/

namespace SlmMcpHub

namespace Dashboard

/-! ### The page -/

/-- An entry of the status list, as far as the page reads it. -/
structure StatusEntry where
  name : Option String := none
  lifecycle : Option String := none
  uptimeSeconds : Option Double := none
  restartCount : Option ℤ := none
  p95LatencyMs : Option Double := none
  ramBytes : Option ℤ := none
  needsAttention : Option Bool := none

/-- `_EMDASH` -/
def emdash : String := "—"

/-- `"".join(rows)` -/
def join (rows : List String) : String := rows.foldr (· ++ ·) ""

/-- The style sheet of the page. -/
def style : String :=
  "\n        body \x7b\n" ++ "            font-family: monospace;\n" ++
    "            padding: 1rem;\n" ++ "            background: #fff;\n" ++
    "            color: #222;\n        \x7d\n" ++ "        h1 \x7b font-size: 1.2rem; " ++
    "margin-bottom: 0.4rem; \x7d\n" ++ "        p.note \x7b margin: 0.2rem 0 1rem; " ++
    "color: #666; font-size: 0.9rem; \x7d\n" ++ "        table \x7b " ++
    "border-collapse: collapse; width: 100%; \x7d\n" ++ "        th, td \x7b\n" ++
    "            border: 1px solid #ccc;\n" ++ "            padding: 0.4rem 0.8rem;\n" ++
    "            text-align: left;\n        \x7d\n" ++ "        th \x7b background: #f0f0f0; " ++
    "font-weight: bold; \x7d\n" ++ "        .connected \x7b color: #007700; \x7d\n" ++
    "        .attention \x7b color: #cc0000; " ++ "font-weight: bold; \x7d\n    "

/-- The tags of `_PAGE_HEADER`, each with the text that follows it. -/
def headerTags : List (String × String) :=
  [("!DOCTYPE html", "\n"), ("html lang=\"en\"", "\n"), ("head", "\n    "),
    ("meta charset=\"utf-8\"", "\n    "),
    ("meta http-equiv=\"refresh\" content=\"10\"", "\n    "),
    ("title", "SLM MCP Hub — Dashboard"), ("/title", "\n    "), ("style", style),
    ("/style", "\n"), ("/head", "\n"), ("body", "\n    "), ("h1", "SLM MCP Hub — Dashboard"),
    ("/h1", "\n    "), ("p class=\"note\"", "Auto-refreshes every 10 seconds."), ("/p", "\n    "),
    ("table", "\n        "), ("thead", "\n            "), ("tr", "\n                "),
    ("th", "Name"), ("/th", "\n                "), ("th", "State"), ("/th", "\n                "),
    ("th", "Uptime"), ("/th", "\n                "), ("th", "Restarts"),
    ("/th", "\n                "), ("th", "P95 ms"), ("/th", "\n                "), ("th", "RAM"),
    ("/th", "\n            "), ("/tr", "\n        "), ("/thead", "\n        "), ("tbody", "\n")]

/-- The tags of `_PAGE_FOOTER`, after a few blanks. -/
def footerTags : List (String × String) :=
  [("/tbody", "\n    "), ("/table", "\n"), ("/body", "\n"), ("/html", "\n")]

/-- A part of the template, from its tags. -/
def markup (l : List (String × String)) : String :=
  join (l.map fun p => "<" ++ p.1 ++ ">" ++ p.2)

/-- `_PAGE_HEADER` -/
def pageHeader : String := markup headerTags

/-- `_PAGE_FOOTER` -/
def pageFooter : String := "        " ++ markup footerTags

/-- `f"{x:.1f}"` -/
def fixed1 : Double → String
  | .nan => "nan"
  | .inf => "inf"
  | .negInf => "-inf"
  | .finite q =>
    let tenths := Double.roundHalfEven (|q| * 10)
    (if q < 0 then "-" else "") ++ toString (tenths / 10) ++ "." ++ toString (tenths % 10)

/-- `_fmt_uptime`, which raises where the seconds are no number. -/
def fmtUptime (seconds : Double) : Option String :=
  if seconds.isNeg ∨ seconds = .finite 0 then some emdash
  else seconds.truncate.map fun n =>
    let h := n / 3600
    let m := n % 3600 / 60
    let s := n % 3600 % 60
    if h ≠ 0 then toString h ++ "h " ++ toString m ++ "m"
    else if m ≠ 0 then toString m ++ "m " ++ toString s ++ "s"
    else toString s ++ "s"

/-- `_fmt_ram`, which raises where there are too many bytes for a `float`. -/
def fmtRam : Option ℤ → Option String
  | none => some emdash
  | some ramBytes =>
    match Double.ofRat (ramBytes / 1048576) with
    | .finite q => some (fixed1 (.finite q) ++ " MB")
    | _ => none

/-- What a row of the page says. -/
structure Row where
  attention : Bool
  name : String
  lifecycle : String
  uptime : String
  restarts : String
  p95 : String
  ram : String

/-- The values of a row, before they are escaped. -/
def StatusEntry.row (e : StatusEntry) : Option Row := do
  let uptime ← fmtUptime (e.uptimeSeconds.getD (.finite 0))
  let ram ← fmtRam e.ramBytes
  return {
    attention := e.needsAttention.getD false
    name := e.name.getD ""
    lifecycle := e.lifecycle.getD emdash
    uptime
    restarts := toString (e.restartCount.getD 0)
    p95 := fixed1 (e.p95LatencyMs.getD (.finite 0))
    ram }

/-- `html.escape(s, quote=True)` -/
def escape (s : String) : String := String.ofList (Html.escape s.toList)

/-- A cell of a row, after a tag. -/
def cell (tag value : String) : String :=
  "                <" ++ tag ++ ">" ++ escape value ++ "</td>\n"

/-- The tag of the first cell: `td class="..."` -/
def Row.classTag (r : Row) : String :=
  if r.attention then "td class=\"attention\"" else "td class=\"connected\""

/-- A row of the page. -/
def Row.html (r : Row) : String :=
  "            <tr>\n" ++ cell r.classTag r.name ++ cell "td" r.lifecycle ++ cell "td" r.uptime ++
    cell "td" r.restarts ++ cell "td" r.p95 ++ cell "td" r.ram ++ "            </tr>\n"

/-- `sorted(status_entries, key=lambda e: str(e.get("name", "")))` -/
def sortedEntries (entries : List StatusEntry) : List StatusEntry :=
  entries.insertionSort (Order.Preimage (·.name.getD "") (· ≤ ·))

/-- `render_dashboard_html`, unless a value cannot be shown. -/
def renderDashboardHtml (entries : List StatusEntry) : Option String :=
  ((sortedEntries entries).mapM StatusEntry.row).map fun rows =>
    pageHeader ++ join (rows.map Row.html) ++ pageFooter

/-! ### How the page is read -/

open Html

/-- The parts of a cell. -/
def cellPieces (tag value : String) : List Piece :=
  [.text "                ".toList, .tag tag.toList, .text (Html.escape value.toList),
    .tag "/td".toList, .text "\n".toList]

/-- The parts of a row. -/
def Row.pieces (r : Row) : List Piece :=
  [.text "            ".toList, .tag "tr".toList, .text "\n".toList] ++
    cellPieces r.classTag r.name ++ cellPieces "td" r.lifecycle ++ cellPieces "td" r.uptime ++
    cellPieces "td" r.restarts ++ cellPieces "td" r.p95 ++ cellPieces "td" r.ram ++
    [.text "            ".toList, .tag "/tr".toList, .text "\n".toList]

/-- The parts of the page. -/
def pagePieces (rows : List Row) : List Piece :=
  pieces headerTags ++ rows.flatMap Row.pieces ++ .text "        ".toList :: pieces footerTags

theorem toList_cell (tag value : String) :
    (cell tag value).toList = render (cellPieces tag value) := by
  have hopen : "                <".toList = "                ".toList ++ ['<'] := by rfl
  have hclose : "</td>\n".toList = '<' :: ("/td".toList ++ ['>']) ++ "\n".toList := by rfl
  have hgt : ">".toList = ['>'] := by rfl
  unfold cell escape
  simp only [String.toList_append, String.toList_ofList, hopen, hclose, hgt, cellPieces, render,
    List.flatMap_cons, List.flatMap_nil, Piece.chars]
  simp only [List.append_assoc, List.cons_append, List.nil_append, List.append_nil]

theorem Row.toList_html (r : Row) : r.html.toList = render r.pieces := by
  have hopen : "            <tr>\n".toList =
      render [.text "            ".toList, .tag "tr".toList, .text "\n".toList] := by rfl
  have hclose : "            </tr>\n".toList =
      render [.text "            ".toList, .tag "/tr".toList, .text "\n".toList] := by rfl
  unfold Row.html Row.pieces
  simp only [String.toList_append, toList_cell, render_append, hopen, hclose]

theorem toList_join (l : List String) : (join l).toList = l.flatMap String.toList := by
  induction l with
  | nil => rfl
  | cons s l ih => rw [join, List.foldr_cons, String.toList_append, ← join, ih, List.flatMap_cons]

theorem toList_markup (l : List (String × String)) :
    (markup l).toList = render (pieces l) := by
  have hlt : "<".toList = ['<'] := by rfl
  have hgt : ">".toList = ['>'] := by rfl
  unfold markup
  rw [toList_join, List.flatMap_map, pieces, render, List.flatMap_assoc]
  refine List.flatMap_congr fun p _ => ?_
  simp only [String.toList_append, hlt, hgt, List.flatMap_cons, List.flatMap_nil, Piece.chars]
  simp only [List.append_assoc, List.cons_append, List.nil_append, List.append_nil]

theorem toList_pageHeader : pageHeader.toList = render (pieces headerTags) :=
  toList_markup headerTags

theorem toList_pageFooter :
    pageFooter.toList = render (.text "        ".toList :: pieces footerTags) := by
  unfold pageFooter
  rw [String.toList_append, toList_markup]
  rfl

theorem not_mem_style : '<' ∉ style.toList := by
  unfold style
  simp only [String.toList_append, List.mem_append, not_or]
  and_intros
  all_goals simp

theorem good_headerTags : ∀ p ∈ headerTags, '>' ∉ p.1.toList ∧ '<' ∉ p.2.toList := by
  simp [headerTags, not_mem_style]

theorem good_footerTags : ∀ p ∈ footerTags, '>' ∉ p.1.toList ∧ '<' ∉ p.2.toList := by
  simp [footerTags]

theorem good_cellPieces {tag : String} (htag : '>' ∉ tag.toList) (value : String) :
    ∀ p ∈ cellPieces tag value, p.Good := by
  intro p hp
  simp only [cellPieces, List.mem_cons, List.not_mem_nil, or_false] at hp
  rcases hp with rfl | rfl | rfl | rfl | rfl
  · show '<' ∉ _
    decide
  · exact htag
  · exact not_mem_escape List.mem_cons_self _
  · show '>' ∉ _
    decide
  · show '<' ∉ _
    decide

theorem Row.good_pieces (r : Row) : ∀ p ∈ r.pieces, p.Good := by
  have htd : '>' ∉ "td".toList := by decide
  have hclass : '>' ∉ r.classTag.toList := by
    unfold Row.classTag
    split <;> decide
  intro p hp
  simp only [Row.pieces, List.mem_append, or_assoc] at hp
  rcases hp with hp | hp | hp | hp | hp | hp | hp | hp
  · simp only [List.mem_cons, List.not_mem_nil, or_false] at hp
    rcases hp with rfl | rfl | rfl <;> decide
  · exact good_cellPieces hclass _ p hp
  · exact good_cellPieces htd _ p hp
  · exact good_cellPieces htd _ p hp
  · exact good_cellPieces htd _ p hp
  · exact good_cellPieces htd _ p hp
  · exact good_cellPieces htd _ p hp
  · simp only [List.mem_cons, List.not_mem_nil, or_false] at hp
    rcases hp with rfl | rfl | rfl <;> decide

/-- **How the page is read.** -/
theorem scan_page (rows : List Row) :
    scan (pageHeader ++ join (rows.map Row.html) ++ pageFooter).toList =
      merge (pagePieces rows) := by
  have hrows : (join (rows.map Row.html)).toList = render (rows.flatMap Row.pieces) := by
    rw [toList_join, List.flatMap_map, render, List.flatMap_assoc]
    exact List.flatMap_congr fun r _ => r.toList_html
  have hpage : (pageHeader ++ join (rows.map Row.html) ++ pageFooter).toList =
      render (pagePieces rows) := by
    rw [String.toList_append, String.toList_append, hrows, pagePieces, render_append, render_append,
      toList_pageHeader, toList_pageFooter]
  rw [hpage]
  refine scan_render fun p hp => ?_
  simp only [pagePieces, List.mem_append, or_assoc, List.mem_cons] at hp
  rcases hp with hp | hp | rfl | hp
  · exact good_pieces good_headerTags p hp
  · obtain ⟨r, -, hr⟩ := List.mem_flatMap.mp hp
    exact r.good_pieces p hr
  · show '<' ∉ _
    decide
  · exact good_pieces good_footerTags p hp

/-! ### What is found on the page -/

/-- The tags of a text. -/
def tags (text : String) : List String := (scan text.toList).2.map fun p => String.ofList p.1

/-- The cells among what has been read: the tag of each, and its text without the escapes. -/
def cellsOf (r : List (List Char × List Char)) : List (String × String) :=
  (r.filter fun p => p.1.take 2 = "td".toList).map fun p =>
    (String.ofList p.1, String.ofList (unescape p.2))

/-- The cells of a page. -/
def cells (page : String) : List (String × String) := cellsOf (scan page.toList).2

/-- The tags a row has, whatever it says. -/
def Row.tags (r : Row) : List String :=
  ["tr", r.classTag, "/td", "td", "/td", "td", "/td", "td", "/td", "td", "/td", "td", "/td", "/tr"]

/-- What the cells of a row say. -/
def Row.cells (r : Row) : List (String × String) :=
  [(r.classTag, r.name), ("td", r.lifecycle), ("td", r.uptime), ("td", r.restarts), ("td", r.p95),
    ("td", r.ram)]

/-- **What a reader finds on a page**: one row for each entry, in the order of the names, with the
values as they are; and no other tags than those of the template. -/
def Shows (entries : List StatusEntry) (page : String) : Prop :=
  ∃ (shown : List StatusEntry) (rows : List Row), shown.Perm entries ∧
    shown.Pairwise (fun e e' => e.name.getD "" ≤ e'.name.getD "") ∧
      shown.mapM StatusEntry.row = some rows ∧ cells page = rows.flatMap Row.cells ∧
        tags page = headerTags.map Prod.fst ++ rows.flatMap Row.tags ++ footerTags.map Prod.fst

theorem tagsOf_append (ps qs : List Piece) : tagsOf (ps ++ qs) = tagsOf ps ++ tagsOf qs :=
  List.filterMap_append

theorem map_ofList_toList (l : List String) : (l.map String.toList).map String.ofList = l := by
  rw [List.map_map]
  exact (List.map_congr_left fun s _ => String.ofList_toList).trans (List.map_id _)

theorem Row.tagsOf_pieces (r : Row) : tagsOf r.pieces = r.tags.map String.toList := by
  unfold Row.pieces Row.tags
  simp only [tagsOf_append]
  rfl

theorem map_ofList_tagsOf_pieces (l : List (String × String)) :
    (tagsOf (pieces l)).map String.ofList = l.map Prod.fst := by
  have hcomp : (l.map fun p => p.1.toList) = (l.map Prod.fst).map String.toList := by
    rw [List.map_map]
    rfl
  rw [tagsOf_pieces, hcomp, map_ofList_toList]

theorem tags_page (rows : List Row) :
    tags (pageHeader ++ join (rows.map Row.html) ++ pageFooter) =
      headerTags.map Prod.fst ++ rows.flatMap Row.tags ++ footerTags.map Prod.fst := by
  have hrows : (tagsOf (rows.flatMap Row.pieces)).map String.ofList = rows.flatMap Row.tags := by
    induction rows with
    | nil => rfl
    | cons r rows ih =>
      rw [List.flatMap_cons, tagsOf_append, List.map_append, ih, r.tagsOf_pieces,
        map_ofList_toList, List.flatMap_cons]
  have hsplit (t : String) : tags t = ((scan t.toList).2.map Prod.fst).map String.ofList := by
    rw [List.map_map]
    rfl
  rw [hsplit, scan_page, map_fst_merge, pagePieces, tagsOf_append, tagsOf_append, List.map_append,
    List.map_append, hrows, map_ofList_tagsOf_pieces]
  exact congrArg _ (map_ofList_tagsOf_pieces footerTags)

/-- What comes before the next tag is not part of a cell that is closed. -/
theorem cellsOf_foldr_row (r : Row) (ps : List Piece) :
    cellsOf (merge (r.pieces ++ ps)).2 = r.cells ++ cellsOf (merge ps).2 := by
  have hclass : r.classTag.toList.take 2 = "td".toList := by
    unfold Row.classTag
    split <;> rfl
  rw [merge_append]
  simp only [Row.pieces, cellPieces, List.cons_append, List.nil_append, List.foldr_cons,
    List.foldr_nil, Piece.before, cellsOf]
  simp [hclass, unescape_escape, Row.cells]

/-- There are no cells before a part without any. -/
theorem cellsOf_foldr_of_forall {ps : List Piece} (h : ∀ t ∈ tagsOf ps, t.take 2 ≠ "td".toList)
    (qs : List Piece) : cellsOf (merge (ps ++ qs)).2 = cellsOf (merge qs).2 := by
  rw [merge_append]
  induction ps with
  | nil => rfl
  | cons p ps ih =>
    cases p with
    | tag name =>
      have hname : name.take 2 ≠ "td".toList := h name List.mem_cons_self
      have hrest := ih fun t ht => h t (List.mem_cons_of_mem _ ht)
      rw [List.foldr_cons, ← hrest]
      simp only [Piece.before, cellsOf, List.filter_cons, hname, decide_false, Bool.false_eq_true,
        if_false]
    | text cs => exact ih h

theorem cells_page (rows : List Row) :
    cells (pageHeader ++ join (rows.map Row.html) ++ pageFooter) = rows.flatMap Row.cells := by
  have hheader : ∀ t ∈ tagsOf (pieces headerTags), t.take 2 ≠ "td".toList := by
    rw [tagsOf_pieces]
    simp [headerTags]
  have hfooter : ∀ t ∈ tagsOf (.text "        ".toList :: pieces footerTags),
      t.take 2 ≠ "td".toList := by
    show ∀ t ∈ tagsOf (pieces footerTags), _
    rw [tagsOf_pieces]
    simp [footerTags]
  have hend : cellsOf (merge (.text "        ".toList :: pieces footerTags)).2 = [] := by
    have h := cellsOf_foldr_of_forall hfooter []
    rwa [List.append_nil] at h
  rw [cells, scan_page, pagePieces, List.append_assoc, cellsOf_foldr_of_forall hheader]
  induction rows with
  | nil => exact hend
  | cons r rows ih =>
    rw [List.flatMap_cons, List.append_assoc, cellsOf_foldr_row, ih, List.flatMap_cons]

/-- **No markup comes from a backend**: whatever the names and the states are, a reader of the page
finds the values and the tags of the template. -/
theorem shows_renderDashboardHtml {entries : List StatusEntry} {page : String}
    (h : renderDashboardHtml entries = some page) : Shows entries page := by
  obtain ⟨rows, hrows, rfl⟩ := Option.map_eq_some_iff.mp h
  exact ⟨sortedEntries entries, rows, List.perm_insertionSort _ _, List.pairwise_insertionSort _ _,
    hrows, cells_page rows, tags_page rows⟩

/-- A backend with a script for a name, and one with what looks like an escape. -/
def scripts : List StatusEntry :=
  [{ name := some "<script>alert('x')</script>", lifecycle := some "ready\" onload=\"x",
     uptimeSeconds := some (.finite 3661), needsAttention := some true },
    { name := some "&lt;b&gt;", ramBytes := some 12582912 }]

theorem shows_scripts : ∃ page, renderDashboardHtml scripts = some page ∧ Shows scripts page := by
  have hsome : ((sortedEntries scripts).mapM StatusEntry.row).isSome = true := by decide +kernel
  obtain ⟨rows, hrows⟩ := Option.isSome_iff_exists.mp hsome
  have hpage : renderDashboardHtml scripts =
      some (pageHeader ++ join (rows.map Row.html) ++ pageFooter) := by
    unfold renderDashboardHtml
    rw [hrows, Option.map_some]
  exact ⟨_, hpage, shows_renderDashboardHtml hpage⟩

end Dashboard

end SlmMcpHub
