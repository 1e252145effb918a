import SlmMcpHub.Library.Dict
import SlmMcpHub.Library.Double

/-!
# JSON values

The values `json.loads` returns. Numbers keep the distinction between `int` and `float`; a `float`
is carried by its value. An object is the list of its entries in source order.

## Main definitions

* `Json`, with its decidable equality
* `Json.truthy`, `Json.typeName`, `Json.hashable` — what the language asks of a value
* `Json.SameValue` — `==`, with a number that is no number equal to itself
* `Json.toDict` — an object as a dictionary
-/

namespace SlmMcpHub

/-- A JSON value. -/
inductive Json where
  | null
  | bool (b : Bool)
  | int (n : ℤ)
  | float (x : Double)
  | str (s : String)
  | arr (elements : List Json)
  | obj (entries : List (String × Json))

namespace Json

/-! ### Equality -/

mutual

/-- Whether two values are the same. -/
def beq : Json → Json → Bool
  | .null, .null => true
  | .bool b, .bool c => b = c
  | .int n, .int m => n = m
  | .float x, .float y => x = y
  | .str s, .str t => s = t
  | .arr l, .arr l' => beqElements l l'
  | .obj l, .obj l' => beqEntries l l'
  | _, _ => false

def beqElements : List Json → List Json → Bool
  | [], [] => true
  | a :: l, b :: l' => beq a b && beqElements l l'
  | _, _ => false

def beqEntries : List (String × Json) → List (String × Json) → Bool
  | [], [] => true
  | (k, a) :: l, (k', b) :: l' => k = k' && beq a b && beqEntries l l'
  | _, _ => false

end

mutual

theorem beq_iff : ∀ a b : Json, a.beq b = true ↔ a = b
  | .arr l, .arr l' => by rw [beq, beqElements_iff l l', arr.injEq]
  | .obj l, .obj l' => by rw [beq, beqEntries_iff l l', obj.injEq]
  | .null, b => by cases b <;> simp [beq]
  | .bool _, b => by cases b <;> simp [beq]
  | .int _, b => by cases b <;> simp [beq]
  | .float _, b => by cases b <;> simp [beq]
  | .str _, b => by cases b <;> simp [beq]
  | .arr _, .null | .arr _, .bool _ | .arr _, .int _ | .arr _, .float _ | .arr _, .str _
  | .arr _, .obj _ => by simp [beq]
  | .obj _, .null | .obj _, .bool _ | .obj _, .int _ | .obj _, .float _ | .obj _, .str _
  | .obj _, .arr _ => by simp [beq]

theorem beqElements_iff : ∀ l l' : List Json, beqElements l l' = true ↔ l = l'
  | [], [] => by simp [beqElements]
  | [], _ :: _ => by simp [beqElements]
  | _ :: _, [] => by simp [beqElements]
  | a :: l, b :: l' => by
    rw [beqElements, Bool.and_eq_true, beq_iff a b, beqElements_iff l l', List.cons.injEq]

theorem beqEntries_iff : ∀ l l' : List (String × Json), beqEntries l l' = true ↔ l = l'
  | [], [] => by simp [beqEntries]
  | [], _ :: _ => by simp [beqEntries]
  | _ :: _, [] => by simp [beqEntries]
  | (k, a) :: l, (k', b) :: l' => by
    rw [beqEntries, Bool.and_eq_true, Bool.and_eq_true, decide_eq_true_eq, beq_iff a b,
      beqEntries_iff l l', List.cons.injEq, Prod.mk.injEq]

end

instance : DecidableEq Json := fun a b => decidable_of_iff _ (beq_iff a b)

/-! ### Reading a value -/

/-- `bool(value)` -/
def truthy : Json → Bool
  | .null => false
  | .bool b => b
  | .int n => n ≠ 0
  | .float x => x ≠ .finite 0
  | .str s => s ≠ ""
  | .arr l => l ≠ []
  | .obj l => l ≠ []

/-- `type(value).__name__` -/
def typeName : Json → String
  | .null => "NoneType"
  | .bool _ => "bool"
  | .int _ => "int"
  | .float _ => "float"
  | .str _ => "str"
  | .arr _ => "list"
  | .obj _ => "dict"

/-- Whether a value can be the key of a dictionary. -/
def hashable : Json → Bool
  | .arr _ => false
  | .obj _ => false
  | _ => true

/-- The number a value is; a truth value counts as 0 or 1. -/
def number? : Json → Option Double
  | .bool b => some (.finite (if b then 1 else 0))
  | .int n => some (.finite n)
  | .float x => some x
  | _ => none

/-- The same value: numbers are compared by what they amount to. -/
def SameValue (a b : Json) : Prop :=
  a = b ∨ ∃ x, a.number? = some x ∧ b.number? = some x

instance (a b : Json) : Decidable (SameValue a b) :=
  decidable_of_iff (a = b ∨ a.number?.isSome ∧ a.number? = b.number?) <| by
    refine or_congr_right ⟨?_, ?_⟩
    · rintro ⟨hsome, heq⟩
      obtain ⟨x, hx⟩ := Option.isSome_iff_exists.mp hsome
      exact ⟨x, hx, heq ▸ hx⟩
    · rintro ⟨x, ha, hb⟩
      rw [ha, hb]
      exact ⟨rfl, rfl⟩

theorem SameValue.refl (a : Json) : SameValue a a := Or.inl rfl

/-- The dictionary of an object; the last of two entries with one key counts. -/
def toDict (entries : List (String × Json)) : Dict String Json := Dict.empty.setAll entries

end Json

end SlmMcpHub
