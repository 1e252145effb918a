import Mathlib.Data.List.DropRight
import Mathlib.Data.String.Basic
import SlmMcpHub.Library.Json

/-!
# Text

`str.strip` and `str.rstrip`, and the functions of text whose results no property depends on:
statements are generic in a `Runtime` that provides them.

## Main definitions

* `Text.strip`, `Text.rstrip`, `Text.isBlank`, `Text.split`
* `Runtime`
-/

namespace SlmMcpHub

namespace Text

/-- The code points `strip` takes off both ends. -/
def whitespace : List ℕ :=
  [0x9, 0xa, 0xb, 0xc, 0xd, 0x1c, 0x1d, 0x1e, 0x1f, 0x20, 0x85, 0xa0, 0x1680, 0x2000, 0x2001,
    0x2002, 0x2003, 0x2004, 0x2005, 0x2006, 0x2007, 0x2008, 0x2009, 0x200a, 0x2028, 0x2029,
    0x202f, 0x205f, 0x3000]

/-- Whether a character is stripped. -/
def isSpace (c : Char) : Bool := whitespace.contains c.toNat

/-- `text.strip()` -/
def strip (s : String) : String :=
  String.ofList ((s.toList.dropWhile isSpace).rdropWhile isSpace)

/-- `not text.strip()` -/
def isBlank (s : String) : Bool := strip s = ""

/-- `text.split()` -/
def split (s : String) : List String :=
  ((s.toList.splitOnP isSpace).filter (· ≠ [])).map String.ofList

theorem strip_eq_empty_iff {s : String} : strip s = "" ↔ ∀ c ∈ s.toList, isSpace c = true := by
  rw [strip, ← String.ofList_nil, String.ofList_inj, List.rdropWhile_eq_nil_iff,
    ← List.dropWhile_eq_nil_iff, List.dropWhile_idempotent, List.dropWhile_eq_nil_iff]

/-! ### Stripping characters off the end -/

/-- `text.rstrip(chars)`: every character at the end that is one of these is taken off. -/
def rstrip (chars s : String) : String :=
  String.ofList (s.toList.rdropWhile (chars.toList.contains ·))

/-- Whether a text ends in one of some characters. -/
def endsIn (chars s : String) : Bool := s.toList.getLast?.any (chars.toList.contains ·)

theorem toList_rstrip (chars s : String) :
    (rstrip chars s).toList = s.toList.rdropWhile (chars.toList.contains ·) :=
  String.toList_ofList

theorem rstrip_eq_self_iff {chars s : String} : rstrip chars s = s ↔ endsIn chars s = false := by
  rw [← String.toList_inj, toList_rstrip, List.rdropWhile_eq_self_iff, endsIn]
  cases hlast : s.toList.getLast? with
  | none =>
    rw [List.getLast?_eq_none_iff.mp hlast]
    simp
  | some c =>
    have hne : s.toList ≠ [] := fun hnil => by simp [hnil] at hlast
    have hc : s.toList.getLast hne = c :=
      Option.some.inj ((List.getLast?_eq_some_getLast hne).symm.trans hlast)
    simp [hne, hc]

/-- What is stripped off a text is stripped off a longer one, too. -/
theorem rstrip_append {chars t : String} (h : ∀ c ∈ t.toList, c ∈ chars.toList) (s : String) :
    rstrip chars (s ++ t) = rstrip chars s := by
  have hlist : ∀ l : List Char, (∀ c ∈ l, c ∈ chars.toList) →
      (s.toList ++ l).rdropWhile (chars.toList.contains ·) =
        s.toList.rdropWhile (chars.toList.contains ·) := by
    intro l
    induction l using List.reverseRecOn with
    | nil => simp
    | append_singleton l c ih =>
      intro hl
      rw [← List.append_assoc, List.rdropWhile_concat_pos _ _ _ (by simpa using hl c (by simp))]
      exact ih fun c hc => hl c (List.mem_append_left _ hc)
  rw [rstrip, rstrip, String.toList_append, hlist t.toList h]

/-- Stripping never adds anything. -/
theorem rstrip_isPrefix (chars s : String) : (rstrip chars s).toList <+: s.toList := by
  rw [toList_rstrip]
  exact List.rdropWhile_prefix _ _

/-! ### Splitting at a character -/

section Split

open String

/-- A split at a single character, in the middle of the work: `l` has been split off, `m` is what
has been read since. -/
theorem splitOnAux_singleton (d : Char) : ∀ (r l m : List Char) (acc : List String),
    splitOnAux (ofList (l ++ m ++ r)) (ofList [d]) ⟨utf8Len l⟩ ⟨utf8Len l + utf8Len m⟩ 0 acc =
      acc.reverse ++ (List.splitOnPPrepend (· == d) r m.reverse).map ofList := by
  intro r
  have hatEnd : ∀ (l : List Char) (n : ℕ),
      Pos.Raw.atEnd (ofList l) ⟨n⟩ = decide (utf8Len l ≤ n) := by
    intro l n
    simp [Pos.Raw.atEnd, utf8ByteSize_ofList]
  induction r with
  | nil =>
    intro l m acc
    have hextract := extract_of_valid l m []
    rw [List.append_nil] at hextract
    rw [List.append_nil, splitOnAux, hatEnd, utf8Len_append, decide_eq_true (le_refl _),
      if_pos rfl, hextract]
    simp
  | cons c r ih =>
    intro l m acc
    have hpos : utf8Len (l ++ m) = utf8Len l + utf8Len m := utf8Len_append l m
    have hget : Pos.Raw.get (ofList (l ++ m ++ c :: r)) ⟨utf8Len l + utf8Len m⟩ = c := by
      rw [← hpos]
      exact get_of_valid (l ++ m) (c :: r)
    have hnext : Pos.Raw.next (ofList (l ++ m ++ c :: r)) ⟨utf8Len l + utf8Len m⟩ =
        ⟨utf8Len l + utf8Len m + c.utf8Size⟩ := by
      rw [← hpos]
      exact next_of_valid (l ++ m) c r
    have hsep : Pos.Raw.get (ofList [d]) 0 = d := get_of_valid [] [d]
    have hsepNext : Pos.Raw.next (ofList [d]) 0 = ⟨d.utf8Size⟩ := by
      simpa using next_of_valid [] d []
    have hend : ¬ Pos.Raw.atEnd (ofList (l ++ m ++ c :: r)) ⟨utf8Len l + utf8Len m⟩ = true := by
      have := c.utf8Size_pos
      rw [hatEnd, decide_eq_true_eq, utf8Len_append, hpos, utf8Len_cons]
      omega
    rw [splitOnAux, if_neg hend, hget, hsep, List.splitOnPPrepend_cons_eq_if]
    split_ifs with h
    · obtain rfl := beq_iff_eq.mp h
      have hextract := extract_of_valid l m (c :: r)
      have hih := ih (l ++ m ++ [c]) [] (ofList m :: acc)
      simp only [hnext, hsepNext, hatEnd, Pos.Raw.unoffsetBy, Nat.add_sub_cancel, hextract]
      simpa [-ofList_append, Nat.add_assoc] using hih
    · have hih := ih l (m ++ [c]) acc
      rw [show Pos.Raw.unoffsetBy ⟨utf8Len l + utf8Len m⟩ 0 = ⟨utf8Len l + utf8Len m⟩ from rfl,
        hnext]
      simpa [-ofList_append, Nat.add_assoc] using hih

/-- A split at a single character is one of the list of characters. -/
theorem splitOn_singleton (s : String) (d : Char) :
    s.splitOn (String.ofList [d]) = (s.toList.splitOn d).map String.ofList := by
  have h := splitOnAux_singleton d s.toList [] [] []
  simpa [String.splitOn, List.splitOn] using h

/-- What has been joined with a character that occurs in no part is split as it was. -/
theorem splitOn_intercalate {parts : List String} (d : Char) (hne : parts ≠ [])
    (h : ∀ part ∈ parts, d ∉ part.toList) :
    ((ofList [d]).intercalate parts).splitOn (ofList [d]) = parts := by
  rw [splitOn_singleton, toList_intercalate, toList_ofList, List.splitOn_intercalate d]
  · simp
  · intro l hl
    obtain ⟨part, hpart, rfl⟩ := List.mem_map.mp hl
    exact h part hpart
  · exact fun hnil => hne (List.map_eq_nil_iff.mp hnil)

end Split

end Text

/-- Functions of the language that are left open. -/
structure Runtime where
  /-- `text.lower()` -/
  lower : String → String
  /-- `repr(value)` -/
  repr : Json → String
  /-- `json.loads(text)`, or the text of the exception it raises. -/
  loads : String → Except String Json
  /-- `hashlib.sha256(json.dumps(value, sort_keys=True).encode()).hexdigest()` -/
  digest : Json → String

/-- `str(value)` -/
def Runtime.str (R : Runtime) : Json → String
  | .str s => s
  | v => R.repr v

end SlmMcpHub
