import Mathlib.Data.List.DropRight
import Mathlib.Data.Int.Notation
import Mathlib.Tactic.Common

/-!
# Reading integers

`int` of a string, as the language documents it: surrounding whitespace is dropped, one sign may
stand in front, single underscores may stand between digits, and any decimal digit of any script
counts as the digit it is. The limit on the number of digits (4300, unless it is set
otherwise) is left out.

## Main results

* `IntLiteral.parse_toString` — writing a number and reading it gives it back
-/

namespace SlmMcpHub

namespace IntLiteral

/-- The code points `int` strips from both ends. -/
def whitespace : List ℕ :=
  [0x9, 0xa, 0xb, 0xc, 0xd, 0x20, 0x85, 0xa0, 0x1680, 0x2000, 0x2001, 0x2002, 0x2003, 0x2004,
    0x2005, 0x2006, 0x2007, 0x2008, 0x2009, 0x200a, 0x2028, 0x2029, 0x202f, 0x205f, 0x3000]

/-- The code points of the zeros of the decimal scripts; the other nine digits follow each. -/
def zeros : List ℕ :=
  [0x30, 0x660, 0x6f0, 0x7c0, 0x966, 0x9e6, 0xa66, 0xae6, 0xb66, 0xbe6, 0xc66, 0xce6, 0xd66,
    0xde6, 0xe50, 0xed0, 0xf20, 0x1040, 0x1090, 0x17e0, 0x1810, 0x1946, 0x19d0, 0x1a80, 0x1a90,
    0x1b50, 0x1bb0, 0x1c40, 0x1c50, 0xa620, 0xa8d0, 0xa900, 0xa9d0, 0xa9f0, 0xaa50, 0xabf0,
    0xff10, 0x104a0, 0x10d30, 0x11066, 0x110f0, 0x11136, 0x111d0, 0x112f0, 0x11450, 0x114d0,
    0x11650, 0x116c0, 0x11730, 0x118e0, 0x11950, 0x11c50, 0x11d50, 0x11da0, 0x16a60, 0x16ac0,
    0x16b50, 0x1d7ce, 0x1d7d8, 0x1d7e2, 0x1d7ec, 0x1d7f6, 0x1e140, 0x1e2f0, 0x1e950, 0x1fbf0]

/-- Whether a character is stripped. -/
def isSpace (c : Char) : Bool := whitespace.contains c.toNat

/-- The value of a decimal digit. -/
def digitValue (c : Char) : Option ℕ :=
  (zeros.find? fun z => decide (z ≤ c.toNat) && decide (c.toNat < z + 10)).map (c.toNat - ·)

/-- Read the digits after a first one, `acc` being the value so far. -/
def digitsFrom (acc : ℕ) : List Char → Option ℕ
  | [] => some acc
  | '_' :: c :: cs => (digitValue c).bind fun d => digitsFrom (10 * acc + d) cs
  | c :: cs => (digitValue c).bind fun d => digitsFrom (10 * acc + d) cs

/-- Read an unsigned literal. -/
def natural : List Char → Option ℕ
  | [] => none
  | c :: cs => (digitValue c).bind fun d => digitsFrom d cs

/-- Drop surrounding whitespace. -/
def strip (cs : List Char) : List Char := (cs.dropWhile isSpace).rdropWhile isSpace

/-- Read an integer literal. -/
def parse (s : String) : Option ℤ :=
  match strip s.toList with
  | '+' :: cs => (natural cs).map Int.ofNat
  | '-' :: cs => (natural cs).map Int.negOfNat
  | cs => (natural cs).map Int.ofNat

/-! ### Reading back a written number -/

theorem toNat_bounds_of_isDigit {c : Char} (h : c.isDigit = true) :
    0x30 ≤ c.toNat ∧ c.toNat < 0x30 + 10 := by
  simp only [Char.isDigit, Bool.and_eq_true, decide_eq_true_eq] at h
  have h1 : ('0' : Char).val.toNat ≤ c.val.toNat := h.1
  have h2 : c.val.toNat ≤ ('9' : Char).val.toNat := h.2
  exact ⟨h1, Nat.lt_succ_of_le h2⟩

theorem digitValue_of_isDigit {c : Char} (h : c.isDigit = true) :
    digitValue c = some (c.toNat - '0'.toNat) := by
  obtain ⟨hlo, hhi⟩ := toNat_bounds_of_isDigit h
  have hfind : (zeros.find? fun z => decide (z ≤ c.toNat) && decide (c.toNat < z + 10)) =
      some 0x30 := by
    rw [zeros, List.find?_cons_of_pos]
    simp [hlo, hhi]
  rw [digitValue, hfind]
  rfl

theorem isSpace_of_isDigit {c : Char} (h : c.isDigit = true) : isSpace c = false := by
  obtain ⟨hlo, hhi⟩ := toNat_bounds_of_isDigit h
  rw [Bool.eq_false_iff, isSpace, Ne, List.contains_iff_mem]
  simp only [whitespace, List.mem_cons, List.not_mem_nil, or_false]
  omega

theorem digitsFrom_of_isDigit : ∀ (cs : List Char) (acc : ℕ), (∀ c ∈ cs, c.isDigit = true) →
    digitsFrom acc cs = some (Nat.ofDigitChars 10 cs acc)
  | [], acc, _ => by rw [digitsFrom, Nat.ofDigitChars_nil]
  | c :: cs, acc, h => by
    have hc : c.isDigit = true := h c List.mem_cons_self
    have hne : c ≠ '_' := by
      rintro rfl
      exact absurd hc (by decide)
    rw [digitsFrom, digitValue_of_isDigit hc, Option.bind_some,
      digitsFrom_of_isDigit cs _ fun c' hc' => h c' (List.mem_cons_of_mem _ hc'),
      Nat.ofDigitChars_cons]
    · exact fun _ _ heq => absurd heq hne

theorem natural_of_isDigit {cs : List Char} (hne : cs ≠ []) (h : ∀ c ∈ cs, c.isDigit = true) :
    natural cs = some (Nat.ofDigitChars 10 cs 0) := by
  cases cs with
  | nil => exact absurd rfl hne
  | cons c cs =>
    rw [natural, digitValue_of_isDigit (h c List.mem_cons_self), Option.bind_some,
      digitsFrom_of_isDigit cs _ fun c' hc' => h c' (List.mem_cons_of_mem _ hc'),
      Nat.ofDigitChars_cons, Nat.mul_zero, Nat.zero_add]

theorem strip_of_isDigit {cs : List Char} (h : ∀ c ∈ cs, c.isDigit = true) : strip cs = cs := by
  have hspace : ∀ c ∈ cs, isSpace c = false := fun c hc => isSpace_of_isDigit (h c hc)
  have hdrop : cs.dropWhile isSpace = cs := by
    cases cs with
    | nil => rfl
    | cons c cs => rw [List.dropWhile_cons_of_neg (by simp [hspace c List.mem_cons_self])]
  rw [strip, hdrop, List.rdropWhile_eq_self_iff]
  exact fun hl => by simp [hspace _ (List.getLast_mem hl)]

/-- **Writing a number and reading it gives it back.** -/
theorem parse_toString (n : ℕ) : parse (toString n) = some (n : ℤ) := by
  have hdigit : ∀ c ∈ Nat.toDigits 10 n, c.isDigit = true := fun c hc =>
    Nat.isDigit_of_mem_toDigits (by decide) (by decide) hc
  have hlist : (toString n).toList = Nat.toDigits 10 n := Nat.toList_repr
  have hnat : natural (Nat.toDigits 10 n) = some n := by
    rw [natural_of_isDigit Nat.toDigits_ne_nil hdigit, Nat.ofDigitChars_ten_toDigits]
  rw [parse, hlist, strip_of_isDigit hdigit]
  -- no digit is a sign
  split
  · next cs heq => exact absurd (hdigit '+' (by rw [heq]; exact List.mem_cons_self)) (by decide)
  · next cs heq => exact absurd (hdigit '-' (by rw [heq]; exact List.mem_cons_self)) (by decide)
  · rw [hnat, Option.map_some, Int.ofNat_eq_natCast]

theorem toString_injective {m n : ℕ} (h : toString m = toString n) : m = n := by
  have hparse := parse_toString m
  rw [h, parse_toString n, Option.some.injEq] at hparse
  exact (Int.ofNat_inj.mp hparse).symm

end IntLiteral

end SlmMcpHub
