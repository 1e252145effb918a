import Mathlib.Data.Rat.Floor
import SlmMcpHub.Library.IntLiteral

/-!
# Doubles

Double-precision numbers by their value, with the conversions `float` makes from integers and from
text. A value that is no double is rounded to the nearest one, ties going to the even significand.
The two zeros are one: they are equal, and nothing that is computed here tells them apart.

## Main definitions

* `Double`, `Double.ofRat`, `Double.ofInt`, `Double.parse`
* `Double.truncate` — `int` of a `float`
-/

namespace SlmMcpHub

/-- The value of a `float`. -/
inductive Double where
  | finite (q : ℚ)
  | inf
  | negInf
  | nan
  deriving DecidableEq

namespace Double

/-- `x < 0` -/
def isNeg : Double → Bool
  | finite q => q < 0
  | negInf => true
  | _ => false

/-- `x > 0` -/
def isPos : Double → Bool
  | finite q => 0 < q
  | inf => true
  | _ => false

theorem eq_zero_of_not_isPos {x : Double} (hneg : x.isNeg = false) (hpos : x.isPos = false)
    (hnan : x ≠ nan) : x = finite 0 := by
  cases x with
  | finite q =>
    simp only [isNeg, isPos, decide_eq_false_iff_not, not_lt] at hneg hpos
    rw [le_antisymm hpos hneg]
  | inf => simp [isPos] at hpos
  | negInf => simp [isNeg] at hneg
  | nan => exact absurd rfl hnan

/-- `int` of a number: the part before the point, if there is one. -/
def truncate : Double → Option ℤ
  | finite q => some (if q < 0 then ⌈q⌉ else ⌊q⌋)
  | _ => none

@[simp] theorem truncate_finite_intCast (n : ℤ) : truncate (finite n) = some n := by
  simp [truncate]

/-! ### Rounding -/

/-- `2 ^ e` -/
def pow2 : ℤ → ℚ
  | .ofNat e => 2 ^ e
  | .negSucc e => 1 / 2 ^ (e + 1)

/-- The nearest integer, the even one of two. -/
def roundHalfEven (q : ℚ) : ℤ :=
  let r := q - ⌊q⌋
  if r < 1 / 2 then ⌊q⌋
  else if 1 / 2 < r then ⌊q⌋ + 1
  else ⌊q⌋ + ⌊q⌋ % 2

/-- The unit in the last place of a positive number: a significand has 53 bits, and the exponent
goes no lower than -1074. -/
def unitOf (q : ℚ) : ℤ :=
  let e := (q.num.natAbs.log2 : ℤ) - q.den.log2
  max ((if pow2 e ≤ q then e else e - 1) - 52) (-1074)

/-- The double next to a number. -/
def ofRat (q : ℚ) : Double :=
  if q = 0 then finite 0
  else
    let u := unitOf |q|
    let m := roundHalfEven (|q| / pow2 u) * pow2 u
    if 2 ^ 1024 ≤ m then if q < 0 then negInf else inf
    else finite (if q < 0 then -m else m)

/-- `float` of an integer, unless it is too large. -/
def ofInt (n : ℤ) : Option Double :=
  match ofRat n with
  | finite q => some (finite q)
  | _ => none

/-! ### Reading -/

/-- The digits text starts with, single underscores between them: their value after `acc`, how many
there are, and what follows. -/
def readDigits (acc count : ℕ) : List Char → ℕ × ℕ × List Char
  | [] => (acc, count, [])
  | '_' :: c :: cs =>
    match IntLiteral.digitValue c with
    | some d => if count = 0 then (acc, count, '_' :: c :: cs)
      else readDigits (10 * acc + d) (count + 1) cs
    | none => (acc, count, '_' :: c :: cs)
  | c :: cs =>
    match IntLiteral.digitValue c with
    | some d => readDigits (10 * acc + d) (count + 1) cs
    | none => (acc, count, c :: cs)

/-- The exponent at the end of a literal. -/
def readExponent : List Char → Option ℤ
  | [] => some 0
  | e :: cs =>
    if e ≠ 'e' ∧ e ≠ 'E' then none
    else match cs with
      | '+' :: ds => IntLiteral.natural ds
      | '-' :: ds => (IntLiteral.natural ds).map Int.negOfNat
      | ds => IntLiteral.natural ds

/-- An unsigned decimal literal. -/
def readDecimal (cs : List Char) : Option ℚ :=
  let (whole, n, rest) := readDigits 0 0 cs
  let (value, places, rest) := match rest with
    | '.' :: rest =>
      let (frac, k, rest) := readDigits 0 0 rest
      (((whole * 10 ^ k + frac : ℕ) : ℚ) / 10 ^ k, n + k, rest)
    | rest => ((whole : ℚ), n, rest)
  if places = 0 then none
  else (readExponent rest).map fun
    | .ofNat e => value * 10 ^ e
    | .negSucc e => value / 10 ^ (e + 1)

/-- An unsigned literal. -/
def readUnsigned (negative : Bool) (cs : List Char) : Option Double :=
  let word := String.ofList (cs.map Char.toLower)
  if word = "inf" ∨ word = "infinity" then some (if negative then negInf else inf)
  else if word = "nan" then some nan
  else (readDecimal cs).map fun q => ofRat (if negative then -q else q)

/-- `float` of a string. -/
def parse (s : String) : Option Double :=
  match IntLiteral.strip s.toList with
  | '+' :: cs => readUnsigned false cs
  | '-' :: cs => readUnsigned true cs
  | cs => readUnsigned false cs

end Double

end SlmMcpHub
