import Mathlib.Data.List.Basic
import Mathlib.Tactic.Common

/-!
# Shell patterns

`fnmatch.fnmatch` where upper and lower case differ: `*` is any text, `?` any character, `[seq]` a
character of a set, which may have ranges in it, and `[!seq]` one that is not. A bracket that is not
closed stands for itself.

## Main definitions

* `Glob.tokens` — the parts of a pattern
* `fnmatch`

## Main results

* `fnmatch_iff_of_plain` — a pattern without wildcards matches itself only
-/

namespace SlmMcpHub

namespace Glob

/-- A part of a pattern. -/
inductive Token where
  | char (c : Char)
  | any
  | star
  /-- A set of characters, by its ranges; it may be negated. -/
  | set (negated : Bool) (ranges : List (Char × Char))
  deriving DecidableEq

/-- What is between brackets, as ranges; a hyphen at the beginning or the end is a character. -/
def ranges : List Char → List (Char × Char)
  | lo :: '-' :: hi :: rest => (lo, hi) :: ranges rest
  | c :: rest => (c, c) :: ranges rest
  | [] => []

/-- What is between brackets, given what follows the first one: a bracket at the beginning does not
close them. -/
def content (l : List Char) : Option (List Char) :=
  let first := l.take 1
  let rest := (l.drop 1).takeWhile (· ≠ ']')
  if first.length + rest.length < l.length then some (first ++ rest) else none

/-- The set that is between brackets, and how long it is. -/
def bracket : List Char → Option (Token × ℕ)
  | '!' :: l => (content l).map fun seq => (.set true (ranges seq), seq.length + 2)
  | l => (content l).map fun seq => (.set false (ranges seq), seq.length + 1)

/-- The parts of a pattern, but for so many characters of it. -/
def tokensFrom : ℕ → List Char → List Token
  | _, [] => []
  | skip + 1, _ :: l => tokensFrom skip l
  | 0, '*' :: l => .star :: tokensFrom 0 l
  | 0, '?' :: l => .any :: tokensFrom 0 l
  | 0, '[' :: l =>
    match bracket l with
    | some (set, length) => set :: tokensFrom length l
    | none => .char '[' :: tokensFrom 0 l
  | 0, c :: l => .char c :: tokensFrom 0 l

/-- The parts of a pattern. -/
def tokens (pattern : String) : List Token := tokensFrom 0 pattern.toList

/-- The part stands for the character. -/
def Token.fits (c : Char) : Token → Bool
  | .char d => c = d
  | .any | .star => true
  | .set negated ranges => negated != ranges.any fun r => r.1 ≤ c && c ≤ r.2

/-- The parts stand for the text. -/
def accepts : List Token → List Char → Bool
  | [], text => text.isEmpty
  | .star :: parts, text => text.tails.any (accepts parts)
  | _ :: _, [] => false
  | part :: parts, c :: text => part.fits c && accepts parts text

/-- The character stands for itself, wherever it is outside of brackets. -/
def isPlain (c : Char) : Bool := c ≠ '*' && c ≠ '?' && c ≠ '['

theorem tokensFrom_of_plain {l : List Char} (h : ∀ c ∈ l, isPlain c = true) :
    tokensFrom 0 l = l.map .char := by
  induction l with
  | nil => rfl
  | cons c l ih =>
    have hc := h c (List.mem_cons_self ..)
    simp only [isPlain, Bool.and_eq_true, decide_eq_true_eq] at hc
    rw [List.map_cons, ← ih fun d hd => h d (List.mem_cons_of_mem _ hd)]
    rw [tokensFrom]
    · exact hc.1.1
    · exact hc.1.2
    · exact hc.2

theorem accepts_chars_iff {l text : List Char} : accepts (l.map .char) text = true ↔ text = l := by
  induction l generalizing text with
  | nil => simp [accepts]
  | cons c l ih =>
    cases text with
    | nil => simp [accepts]
    | cons d text => simp [accepts, Token.fits, ih]

end Glob

/-- `fnmatch.fnmatch(name, pattern)` -/
def fnmatch (name pattern : String) : Bool := Glob.accepts (Glob.tokens pattern) name.toList

/-- **A pattern without wildcards** matches itself, and nothing else. -/
theorem fnmatch_iff_of_plain {name pattern : String}
    (h : ∀ c ∈ pattern.toList, Glob.isPlain c = true) :
    fnmatch name pattern = true ↔ name = pattern := by
  rw [fnmatch, Glob.tokens, Glob.tokensFrom_of_plain h, Glob.accepts_chars_iff, String.toList_inj]

/-- Sets, ranges, and a bracket that is not closed. -/
example : fnmatch "read_7" "r[!0-9]*_[5-9]" = true ∧ fnmatch "a]b" "a[]x]?" = true ∧
    fnmatch "a[b" "a[*" = true ∧ fnmatch "read" "r?d" = false := by
  decide

end SlmMcpHub
