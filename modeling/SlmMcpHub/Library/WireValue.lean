import SlmMcpHub.Library.Json

/-!
# JSON values with any code points

A text of the language is a sequence of code points, and the surrogates are among them: an escape in
a JSON document may name one that stands alone. UTF-8 encodes all others, so that a value that was
read need not be one that can be written.

## Main definitions

* `CodeText` — the texts
* `WireValue` — the values `json.loads` returns, with such texts
* `WireValue.encodable` — whether `json.dumps(value, allow_nan=False).encode("utf-8")` succeeds
* `WireValue.ofJson` — the values without such texts among them
-/

namespace SlmMcpHub

/-- A code point. -/
abbrev CodePoint := Fin 0x110000

/-- Whether UTF-8 has no encoding for a code point. -/
def CodePoint.isSurrogate (c : CodePoint) : Bool := 0xd800 ≤ c.val && c.val ≤ 0xdfff

/-- A text. -/
abbrev CodeText := List CodePoint

namespace CodeText

/-- The code point of a character. -/
def codePoint (c : Char) : CodePoint := ⟨c.toNat, by
  have hvalid : c.toNat.isValidChar := c.valid
  rcases hvalid with h | ⟨-, h⟩
  · exact h.trans (by decide)
  · exact h⟩

/-- A literal. -/
def ofString (s : String) : CodeText := s.toList.map codePoint

/-- Whether Latin-1 has an encoding for a text. -/
def isLatin1 (s : CodeText) : Bool := s.all fun c => c.val < 256

/-- Whether UTF-8 has an encoding for a text. -/
def encodable (s : CodeText) : Bool := s.all fun c => !c.isSurrogate

theorem codePoint_injective : Function.Injective codePoint := by
  intro c d h
  have hval : (codePoint c).val = (codePoint d).val := congrArg Fin.val h
  exact Char.toNat_inj.mp hval

theorem ofString_injective : Function.Injective ofString := fun _ _ h =>
  String.ext (List.map_injective_iff.mpr codePoint_injective h)

/-- A literal has no surrogates. -/
theorem encodable_ofString (s : String) : (ofString s).encodable = true := by
  refine List.all_eq_true.mpr fun c hc => ?_
  obtain ⟨d, -, rfl⟩ := List.mem_map.mp hc
  have hvalid : d.toNat.isValidChar := d.valid
  have hval : (codePoint d).val = d.toNat := rfl
  simp only [CodePoint.isSurrogate, hval, Bool.not_eq_true', Bool.and_eq_false_iff,
    decide_eq_false_iff_not]
  rcases hvalid with h | ⟨h, -⟩ <;> omega

/-- A text in Latin-1 has no surrogates. -/
theorem encodable_of_isLatin1 {s : CodeText} (h : s.isLatin1 = true) : s.encodable = true := by
  refine List.all_eq_true.mpr fun c hc => ?_
  have hlt : c.val < 256 := of_decide_eq_true (List.all_eq_true.mp h c hc)
  simp only [CodePoint.isSurrogate, Bool.not_eq_true', Bool.and_eq_false_iff,
    decide_eq_false_iff_not]
  omega

end CodeText

/-- A JSON value. The entries of an object have distinct keys when `json.loads` made it. -/
inductive WireValue where
  | null
  | bool (b : Bool)
  | int (n : ℤ)
  | float (x : Double)
  | str (s : CodeText)
  | arr (elements : List WireValue)
  | obj (entries : List (CodeText × WireValue))

namespace WireValue

/-- `value is None` -/
def isNull : WireValue → Bool
  | .null => true
  | _ => false

/-- The text a value is, if it is one. -/
def str? : WireValue → Option CodeText
  | .str s => some s
  | _ => none

/-- The entries of an object. -/
def obj? : WireValue → Option (List (CodeText × WireValue))
  | .obj entries => some entries
  | _ => none

/-- `dict.get(key)` -/
def get (entries : List (CodeText × WireValue)) (key : String) : WireValue :=
  ((Dict.empty.setAll entries).get? (CodeText.ofString key)).getD .null

/-- `value if isinstance(value, dict) else {}` -/
def orEmpty (v : WireValue) : List (CodeText × WireValue) := v.obj?.getD []

/-! ### Writing a value -/

mutual

/-- Whether a value can be written: numbers are finite, and UTF-8 has the texts. -/
def encodable : WireValue → Bool
  | .float (.finite _) => true
  | .float _ => false
  | .str s => s.encodable
  | .arr elements => encodableElements elements
  | .obj entries => encodableEntries entries
  | _ => true

def encodableElements : List WireValue → Bool
  | [] => true
  | v :: l => v.encodable && encodableElements l

def encodableEntries : List (CodeText × WireValue) → Bool
  | [] => true
  | (k, v) :: l => k.encodable && v.encodable && encodableEntries l

end

@[simp] theorem encodable_null : encodable .null = true := rfl

@[simp] theorem encodable_int (n : ℤ) : encodable (.int n) = true := rfl

@[simp] theorem encodable_str (s : CodeText) : encodable (.str s) = s.encodable := rfl

@[simp] theorem encodable_obj (entries : List (CodeText × WireValue)) :
    encodable (.obj entries) = encodableEntries entries := rfl

@[simp] theorem encodable_arr (elements : List WireValue) :
    encodable (.arr elements) = encodableElements elements := rfl

/-! ### The values without surrogates -/

mutual

/-- A value without surrogates. -/
def ofJson : Json → WireValue
  | .null => .null
  | .bool b => .bool b
  | .int n => .int n
  | .float x => .float x
  | .str s => .str (CodeText.ofString s)
  | .arr elements => .arr (ofElements elements)
  | .obj entries => .obj (ofEntries entries)

def ofElements : List Json → List WireValue
  | [] => []
  | v :: l => ofJson v :: ofElements l

def ofEntries : List (String × Json) → List (CodeText × WireValue)
  | [] => []
  | (k, v) :: l => (CodeText.ofString k, ofJson v) :: ofEntries l

end

theorem lastOf_ofEntries (key : String) : ∀ entries : List (String × Json),
    Dict.lastOf (ofEntries entries) (CodeText.ofString key) =
      (Dict.lastOf entries key).map ofJson
  | [] => rfl
  | (k, v) :: l => by
    rw [ofEntries, Dict.lastOf_cons, Dict.lastOf_cons, lastOf_ofEntries key l]
    by_cases hkey : k = key
    · cases Dict.lastOf l key <;> simp [hkey]
    · have hne : CodeText.ofString k ≠ CodeText.ofString key :=
        fun h => hkey (CodeText.ofString_injective h)
      cases Dict.lastOf l key <;> simp [hkey, hne]

/-- To look up a key is the same with and without surrogates. -/
theorem get_ofEntries (entries : List (String × Json)) (key : String) :
    get (ofEntries entries) key = ofJson (((Json.toDict entries).get? key).getD .null) := by
  rw [get, Json.toDict, Dict.get?_setAll, Dict.get?_setAll, lastOf_ofEntries, Dict.get?_empty,
    Dict.get?_empty, Option.or_none, Option.or_none]
  cases Dict.lastOf entries key <;> simp [ofJson]

end WireValue

end SlmMcpHub
