import Mathlib.Data.List.Basic
import Mathlib.Tactic.Common

/-!
# Markup

A text with tags in it, as it is read: what is between `<` and the next `>` is a tag. Text that is
to stand between tags is escaped with `html.escape`, so that there are no brackets in it, and a
reader takes the escapes back.

## Main definitions

* `Html.escape`, `Html.unescape`
* `Html.scan` — the tags of a text, each with what follows it
* `Html.Piece`, `Html.render`, `Html.merge` — a text that is put together from tags and text

## Main results

* `Html.unescape_escape`
* `Html.not_mem_escape` — there are no brackets and no quotes in what is escaped
* `Html.scan_render`, `Html.map_fst_merge` — what is put together is read as that
-/

namespace SlmMcpHub

namespace Html

/-! ### Escaping -/

/-- One character of `html.escape(s, quote=True)`. -/
def escapeChar : Char → List Char
  | '&' => ['&', 'a', 'm', 'p', ';']
  | '<' => ['&', 'l', 't', ';']
  | '>' => ['&', 'g', 't', ';']
  | '"' => ['&', 'q', 'u', 'o', 't', ';']
  | '\'' => ['&', '#', 'x', '2', '7', ';']
  | c => [c]

/-- `html.escape(s, quote=True)` -/
def escape (s : List Char) : List Char := s.flatMap escapeChar

/-- What a reader makes of it. -/
def unescape : List Char → List Char
  | '&' :: 'a' :: 'm' :: 'p' :: ';' :: cs => '&' :: unescape cs
  | '&' :: 'l' :: 't' :: ';' :: cs => '<' :: unescape cs
  | '&' :: 'g' :: 't' :: ';' :: cs => '>' :: unescape cs
  | '&' :: 'q' :: 'u' :: 'o' :: 't' :: ';' :: cs => '"' :: unescape cs
  | '&' :: '#' :: 'x' :: '2' :: '7' :: ';' :: cs => '\'' :: unescape cs
  | c :: cs => c :: unescape cs
  | [] => []

/-- The characters that are escaped. -/
def specials : List Char := ['&', '<', '>', '"', '\'']

theorem escapeChar_of_not_mem {c : Char} (h : c ∉ specials) : escapeChar c = [c] := by
  simp only [specials, List.mem_cons, List.not_mem_nil, or_false, not_or] at h
  obtain ⟨h1, h2, h3, h4, h5⟩ := h
  unfold escapeChar
  split
  · exact absurd rfl h1
  · exact absurd rfl h2
  · exact absurd rfl h3
  · exact absurd rfl h4
  · exact absurd rfl h5
  · rfl

theorem unescape_cons {c : Char} (h : c ≠ '&') (cs : List Char) :
    unescape (c :: cs) = c :: unescape cs := by
  rw [unescape]
  all_goals
    intros
    exact absurd ‹_› h

theorem unescape_escapeChar (c : Char) (cs : List Char) :
    unescape (escapeChar c ++ cs) = c :: unescape cs := by
  by_cases hc : c ∈ specials
  · simp only [specials, List.mem_cons, List.not_mem_nil, or_false] at hc
    rcases hc with rfl | rfl | rfl | rfl | rfl <;> rfl
  · rw [escapeChar_of_not_mem hc, List.singleton_append]
    refine unescape_cons (fun heq => hc ?_) cs
    rw [heq]
    exact List.mem_cons_self

/-- **What is escaped is read back.** -/
theorem unescape_escape (s : List Char) : unescape (escape s) = s := by
  induction s with
  | nil => rfl
  | cons c s ih => rw [escape, List.flatMap_cons, unescape_escapeChar, ← escape, ih]

/-- **There are no brackets and no quotes in what is escaped.** -/
theorem not_mem_escape {c : Char} (hc : c ∈ ['<', '>', '"', '\'']) (s : List Char) :
    c ∉ escape s := by
  intro hmem
  obtain ⟨d, -, hd⟩ := List.mem_flatMap.mp hmem
  by_cases hspecial : d ∈ specials
  · simp only [specials, List.mem_cons, List.not_mem_nil, or_false] at hspecial hc
    rcases hspecial with rfl | rfl | rfl | rfl | rfl <;>
      rcases hc with rfl | rfl | rfl | rfl <;> exact absurd hd (by decide)
  · rw [escapeChar_of_not_mem hspecial, List.mem_singleton] at hd
    subst hd
    simp only [specials, List.mem_cons, List.not_mem_nil, or_false, not_or] at hspecial hc
    rcases hc with rfl | rfl | rfl | rfl <;> simp at hspecial

/-! ### Reading tags -/

mutual

/-- Read some text, up to the next tag. -/
def readText (acc : List Char) : List Char → List Char × List (List Char × List Char)
  | [] => (acc.reverse, [])
  | c :: cs => if c = '<' then (acc.reverse, readTag [] cs) else readText (c :: acc) cs

/-- Read a tag, and the text that follows it. -/
def readTag (acc : List Char) : List Char → List (List Char × List Char)
  | [] => [(acc.reverse, [])]
  | c :: cs =>
    if c = '>' then (acc.reverse, (readText [] cs).1) :: (readText [] cs).2
    else readTag (c :: acc) cs

end

/-- The text before the first tag, and each tag with the text after it. -/
def scan (cs : List Char) : List Char × List (List Char × List Char) := readText [] cs

/-- A part of a text. -/
inductive Piece where
  | tag (name : List Char)
  | text (cs : List Char)

/-- A part as it is written. -/
def Piece.chars : Piece → List Char
  | .tag name => '<' :: (name ++ ['>'])
  | .text cs => cs

/-- No text begins a tag, and no tag ends early. -/
def Piece.Good : Piece → Prop
  | .tag name => '>' ∉ name
  | .text cs => '<' ∉ cs

instance : (p : Piece) → Decidable p.Good
  | .tag name => inferInstanceAs (Decidable ('>' ∉ name))
  | .text cs => inferInstanceAs (Decidable ('<' ∉ cs))

def render (ps : List Piece) : List Char := ps.flatMap Piece.chars

/-- One more part before the others. -/
def Piece.before (p : Piece) (r : List Char × List (List Char × List Char)) :
    List Char × List (List Char × List Char) :=
  match p with
  | .tag name => ([], (name, r.1) :: r.2)
  | .text cs => (cs ++ r.1, r.2)

/-- How the parts are read. -/
def merge (ps : List Piece) : List Char × List (List Char × List Char) :=
  ps.foldr Piece.before ([], [])

theorem readText_append {l : List Char} (h : '<' ∉ l) (acc cs : List Char) :
    readText acc (l ++ cs) = (acc.reverse ++ l ++ (readText [] cs).1, (readText [] cs).2) := by
  -- The induction goes through the text; what has been read is general at the end of it as well.
  have hacc : ∀ acc, readText acc cs = (acc.reverse ++ (readText [] cs).1, (readText [] cs).2) := by
    induction cs with
    | nil => intro acc; simp [readText]
    | cons c cs ih =>
      intro acc
      rw [readText, readText]
      split_ifs
      · simp
      · rw [ih (c :: acc), ih [c]]
        simp
  induction l generalizing acc with
  | nil => rw [List.nil_append, hacc, List.append_nil]
  | cons c l ih =>
    obtain ⟨hc, hl⟩ := not_or.mp (mt List.mem_cons.mpr h)
    rw [List.cons_append, readText, if_neg (Ne.symm hc), ih hl]
    simp

theorem readTag_append {l : List Char} (h : '>' ∉ l) (acc cs : List Char) :
    readTag acc (l ++ '>' :: cs) =
      (acc.reverse ++ l, (readText [] cs).1) :: (readText [] cs).2 := by
  induction l generalizing acc with
  | nil => rw [List.nil_append, readTag, if_pos rfl, List.append_nil]
  | cons c l ih =>
    obtain ⟨hc, hl⟩ := not_or.mp (mt List.mem_cons.mpr h)
    rw [List.cons_append, readTag, if_neg (Ne.symm hc), ih hl]
    simp

theorem scan_cons {p : Piece} (h : p.Good) (cs : List Char) :
    scan (p.chars ++ cs) = p.before (scan cs) := by
  cases p with
  | text l =>
    rw [Piece.chars, scan, readText_append h]
    simp [Piece.before, scan]
  | tag name =>
    have hchars : (Piece.tag name).chars ++ cs = '<' :: (name ++ '>' :: cs) := by
      simp [Piece.chars]
    rw [hchars, scan, readText, if_pos rfl, readTag_append h]
    simp [Piece.before, scan]

/-- **What is put together from tags and text is read as that.** -/
theorem scan_render {ps : List Piece} (h : ∀ p ∈ ps, p.Good) : scan (render ps) = merge ps := by
  induction ps with
  | nil => simp [render, scan, readText, merge]
  | cons p ps ih =>
    rw [render, List.flatMap_cons, scan_cons (h p List.mem_cons_self), ← render,
      ih fun q hq => h q (List.mem_cons_of_mem _ hq)]
    rfl

theorem render_append (ps qs : List Piece) : render (ps ++ qs) = render ps ++ render qs :=
  List.flatMap_append

theorem merge_append (ps qs : List Piece) : merge (ps ++ qs) = ps.foldr Piece.before (merge qs) :=
  List.foldr_append

/-- The tags that are read are those that were put there. -/
def tagsOf (ps : List Piece) : List (List Char) :=
  ps.filterMap fun
    | .tag name => some name
    | .text _ => none

theorem map_fst_merge (ps : List Piece) : (merge ps).2.map Prod.fst = tagsOf ps := by
  induction ps with
  | nil => rfl
  | cons p ps ih =>
    cases p with
    | tag name =>
      show name :: (merge ps).2.map Prod.fst = name :: tagsOf ps
      rw [ih]
    | text cs => exact ih

/-- Tags, each with the text that follows it. -/
def pieces (l : List (String × String)) : List Piece :=
  l.flatMap fun p => [.tag p.1.toList, .text p.2.toList]

theorem tagsOf_pieces (l : List (String × String)) :
    tagsOf (pieces l) = l.map fun p => p.1.toList := by
  induction l with
  | nil => rfl
  | cons p l ih =>
    show p.1.toList :: tagsOf (pieces l) = p.1.toList :: l.map fun p => p.1.toList
    rw [ih]

theorem good_pieces {l : List (String × String)}
    (h : ∀ p ∈ l, '>' ∉ p.1.toList ∧ '<' ∉ p.2.toList) : ∀ p ∈ pieces l, p.Good := by
  intro p hp
  obtain ⟨q, hq, hp⟩ := List.mem_flatMap.mp hp
  obtain ⟨hname, hafter⟩ := h q hq
  simp only [List.mem_cons, List.not_mem_nil, or_false] at hp
  rcases hp with rfl | rfl
  · exact hname
  · exact hafter

end Html

end SlmMcpHub
