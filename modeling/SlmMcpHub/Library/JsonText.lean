import SlmMcpHub.Library.JsonScalars

/-!
# The text of JSON values

`json.dumps`, for any of its layouts, and `json.loads`. How a `float` is written is a parameter:
only some digits that are read back as the same number are asked for.

## Main definitions

* `JsonText.Layout` — the whitespace between the parts
* `JsonText.dumps`, `JsonText.loads`
* `JsonText.Writable` — the numbers in a value can be written, and no key occurs twice

## Main results

* `JsonText.loads_dumps` — what has been written is read back
* `JsonText.printable_dumps` — what is written on one line is printable ASCII
-/

namespace SlmMcpHub

namespace JsonText

variable {cs rest : List Char}

/-! ### Values -/

/-- Whitespace, as JSON has it. -/
def isWs (c : Char) : Bool := c = ' ' || c = '\t' || c = '\n' || c = '\r'

def skipWs (cs : List Char) : List Char := cs.dropWhile isWs

/-- The whitespace between the parts of a value: after an opening bracket, after a comma and before
a closing bracket, by the depth of what comes next, and after a colon. -/
structure Layout where
  gap : ℕ → List Char
  item : ℕ → List Char
  colon : List Char
  isWs_gap : ∀ depth, ∀ c ∈ gap depth, isWs c = true
  isWs_item : ∀ depth, ∀ c ∈ item depth, isWs c = true
  isWs_colon : ∀ c ∈ colon, isWs c = true

/-- `separators=(",", ":")` -/
def Layout.compact : Layout := ⟨fun _ => [], fun _ => [], [], by simp, by simp, by simp⟩

/-- No argument. -/
def Layout.plain : Layout :=
  ⟨fun _ => [], fun _ => [' '], [' '], by simp, by simp [isWs], by simp [isWs]⟩

section Dumps

variable (L : Layout) (floatRepr : Double → List Char)

/-- The text of a `float`; `floatRepr` is `float.__repr__`. -/
def dumpsFloat : Double → List Char
  | .nan => "NaN".toList
  | .inf => "Infinity".toList
  | .negInf => "-Infinity".toList
  | x => floatRepr x

mutual

/-- The text of a value at a depth. -/
def dumpsAt (depth : ℕ) : Json → List Char
  | .null => "null".toList
  | .bool b => (if b then "true" else "false").toList
  | .int n => dumpsInt n
  | .float x => dumpsFloat floatRepr x
  | .str s => dumpsStr s
  | .arr [] => ['[', ']']
  | .arr (v :: l) =>
    '[' :: (L.gap (depth + 1) ++ (dumpsAt (depth + 1) v ++ (dumpsElements (depth + 1) l ++
      (L.gap depth ++ [']']))))
  | .obj [] => ['{', '}']
  | .obj ((k, v) :: l) =>
    '{' :: (L.gap (depth + 1) ++ (dumpsStr k ++ (':' :: L.colon ++ (dumpsAt (depth + 1) v ++
      (dumpsEntries (depth + 1) l ++ (L.gap depth ++ ['}']))))))

/-- The elements after the first one. -/
def dumpsElements (depth : ℕ) : List Json → List Char
  | [] => []
  | v :: l => ',' :: (L.item depth ++ (dumpsAt depth v ++ dumpsElements depth l))

/-- The entries after the first one. -/
def dumpsEntries (depth : ℕ) : List (String × Json) → List Char
  | [] => []
  | (k, v) :: l =>
    ',' :: (L.item depth ++ (dumpsStr k ++ (':' :: L.colon ++ (dumpsAt depth v ++
      dumpsEntries depth l))))

end

/-- `json.dumps` -/
def dumps (v : Json) : String := String.ofList (dumpsAt L floatRepr 0 v)

end Dumps

mutual

/-- A value. There are no more characters than the first argument says. -/
def readValue : ℕ → List Char → Option (Json × List Char)
  | 0, _ => none
  | fuel + 1, cs =>
    match cs with
    | '"' :: cs => (readStr cs.length cs).map fun p => (.str (String.ofList p.1), p.2)
    | '[' :: cs =>
      match skipWs cs with
      | ']' :: cs => some (.arr [], cs)
      | cs => (readElements fuel cs).map fun p => (.arr p.1, p.2)
    | '{' :: cs =>
      match skipWs cs with
      | '}' :: cs => some (.obj [], cs)
      | cs => (readEntries fuel cs).map fun p => (.obj (Json.toDict p.1).entries, p.2)
    | cs => (readNumber cs).or (readLiteral cs)

/-- The elements of an array, from the first character of one. -/
def readElements : ℕ → List Char → Option (List Json × List Char)
  | 0, _ => none
  | fuel + 1, cs => do
    let (v, cs) ← readValue fuel cs
    match skipWs cs with
    | ']' :: cs => return ([v], cs)
    | ',' :: cs =>
      let (l, cs) ← readElements fuel (skipWs cs)
      return (v :: l, cs)
    | _ => none

/-- The entries of an object, from the first character of one. -/
def readEntries : ℕ → List Char → Option (List (String × Json) × List Char)
  | fuel + 1, '"' :: cs => do
    let (k, cs) ← readStr cs.length cs
    match skipWs cs with
    | ':' :: cs =>
      let (v, cs) ← readValue fuel (skipWs cs)
      match skipWs cs with
      | '}' :: cs => return ([(String.ofList k, v)], cs)
      | ',' :: cs =>
        let (l, cs) ← readEntries fuel (skipWs cs)
        return ((String.ofList k, v) :: l, cs)
      | _ => none
    | _ => none
  | _, _ => none

end

/-- `json.loads` -/
def loads (s : String) : Option Json :=
  match readValue s.toList.length (skipWs s.toList) with
  | some (v, rest) => if skipWs rest = [] then some v else none
  | none => none

/-! ### Reading back a value -/

section Writable

variable (floatRepr : Double → List Char)

/-- What is written for a `float` is a number with a point or an exponent, and it is read as this
`float`. -/
def ReadsFloat (x : Double) : Prop :=
  (∃ q, x = .finite q) → readNumber (floatRepr x) = some (.float x, [])

mutual

/-- The numbers in a value can be written, and no key occurs twice in an object. -/
def Writable : Json → Prop
  | .int n => (Nat.toDigits 10 n.natAbs).length ≤ maxStrDigits
  | .float x => ReadsFloat floatRepr x
  | .arr l => WritableElements l
  | .obj l => (l.map Prod.fst).Nodup ∧ WritableEntries l
  | _ => True

def WritableElements : List Json → Prop
  | [] => True
  | v :: l => Writable v ∧ WritableElements l

def WritableEntries : List (String × Json) → Prop
  | [] => True
  | (_, v) :: l => Writable v ∧ WritableEntries l

end

end Writable

/-! ### Whitespace -/

theorem skipWs_append {ws : List Char} (h : ∀ c ∈ ws, isWs c = true) (cs : List Char) :
    skipWs (ws ++ cs) = skipWs cs := by
  rw [skipWs, List.dropWhile_append_of_pos h]
  rfl

theorem skipWs_cons {c : Char} (h : isWs c = false) (cs : List Char) :
    skipWs (c :: cs) = c :: cs := by
  rw [skipWs, List.dropWhile_cons_of_neg (by simp [h])]

/-- A value does not go on with whitespace, nor with what comes after a value. -/
theorem endsNumber_append (ws : List Char) (h : ∀ c ∈ ws, isWs c = true) {c : Char}
    (hc : c ∈ [',', ']', '}']) (cs : List Char) : EndsNumber (ws ++ c :: cs) := by
  intro d hd
  cases ws with
  | nil =>
    obtain rfl : c = d := by simpa using hd
    simp only [List.mem_cons, List.not_mem_nil, or_false] at hc
    rcases hc with rfl | rfl | rfl <;> decide
  | cons w ws =>
    obtain rfl : w = d := by simpa using hd
    have hw := h w List.mem_cons_self
    simp only [isWs, Bool.or_eq_true, decide_eq_true_eq] at hw
    rcases hw with ((rfl | rfl) | rfl) | rfl <;> decide

theorem endsNumber_comma (cs : List Char) : EndsNumber (',' :: cs) :=
  endsNumber_append [] (by simp) (by simp) cs

theorem endsNumber_nil : EndsNumber [] := by
  intro c hc
  cases hc

/-- How a value can start. -/
def Starts (cs : List Char) : Prop := ∃ c rest, cs = c :: rest ∧ isWs c = false ∧ c ≠ ']'

theorem Starts.append {cs : List Char} (h : Starts cs) (rest : List Char) :
    Starts (cs ++ rest) := by
  obtain ⟨c, cs, rfl, hc⟩ := h
  exact ⟨c, cs ++ rest, rfl, hc⟩

theorem Starts.skipWs {cs : List Char} (h : Starts cs) : skipWs cs = cs := by
  obtain ⟨c, cs, rfl, hc, -⟩ := h
  exact skipWs_cons hc cs

/-- A number starts with a digit or a minus sign. -/
theorem head_of_readNumber {cs : List Char} {p : Json × List Char} (h : readNumber cs = some p) :
    ∃ c rest, cs = c :: rest ∧ (c = '-' ∨ c.isDigit = true) := by
  cases cs with
  | nil => cases h
  | cons c cs =>
    refine ⟨c, cs, rfl, ?_⟩
    by_contra hc
    obtain ⟨hminus, hdigit⟩ := not_or.mp hc
    have hsign : readSign (c :: cs) = ([], c :: cs) := by
      rw [readSign]
      exact fun _ heq => hminus (List.cons.inj heq).1
    have hwhole : readWhole (c :: cs) = none := by
      rw [readWhole_of_ne (fun heq => hdigit (by rw [heq]; rfl)), List.takeWhile_cons,
        Bool.eq_false_iff.mpr hdigit]
      rfl
    rw [readNumber, hsign] at h
    simp [hwhole] at h

theorem starts_of_readNumber {cs : List Char} {p : Json × List Char} (h : readNumber cs = some p) :
    Starts cs := by
  obtain ⟨c, rest, rfl, hc⟩ := head_of_readNumber h
  refine ⟨c, rest, rfl, ?_⟩
  rcases hc with rfl | hc
  · decide
  · constructor
    · rw [Bool.eq_false_iff]
      intro hws
      simp only [isWs, Bool.or_eq_true, decide_eq_true_eq] at hws
      rcases hws with ((rfl | rfl) | rfl) | rfl <;> exact absurd hc (by decide)
    · rintro rfl
      exact absurd hc (by decide)

/-- Numbers are read where no string, array or object starts. -/
theorem readValue_of_readNumber {cs : List Char} {p : Json × List Char} (h : readNumber cs = some p)
    (fuel : ℕ) : readValue (fuel + 1) cs = some p := by
  obtain ⟨c, rest, rfl, hc⟩ := head_of_readNumber h
  have hne : c ≠ '"' ∧ c ≠ '[' ∧ c ≠ '{' := by
    rcases hc with rfl | hc
    · decide
    · refine ⟨?_, ?_, ?_⟩ <;> (rintro rfl; exact absurd hc (by decide))
  rw [readValue, h]
  · rfl
  · exact fun _ heq => hne.1 (List.cons.inj heq).1
  · exact fun _ heq => hne.2.1 (List.cons.inj heq).1
  · exact fun _ heq => hne.2.2 (List.cons.inj heq).1

/-! ### The round trip -/

section RoundTrip

variable {L : Layout} {floatRepr : Double → List Char}

theorem starts_dumpsAt : ∀ {v : Json} (depth : ℕ), Writable floatRepr v →
    Starts (dumpsAt L floatRepr depth v)
  | .null, _, _ => ⟨_, _, rfl, by decide⟩
  | .bool true, _, _ => ⟨_, _, rfl, by decide⟩
  | .bool false, _, _ => ⟨_, _, rfl, by decide⟩
  | .int n, _, h => starts_of_readNumber (readNumber_dumpsInt h)
  | .float .nan, _, _ => ⟨_, _, rfl, by decide⟩
  | .float .inf, _, _ => ⟨_, _, rfl, by decide⟩
  | .float .negInf, _, _ => ⟨_, _, rfl, by decide⟩
  | .float (.finite q), _, h => starts_of_readNumber (h ⟨q, rfl⟩)
  | .str s, _, _ => ⟨_, _, rfl, by decide⟩
  | .arr [], _, _ => ⟨_, _, rfl, by decide⟩
  | .arr (_ :: _), _, _ => ⟨_, _, rfl, by decide⟩
  | .obj [], _, _ => ⟨_, _, rfl, by decide⟩
  | .obj ((_, _) :: _), _, _ => ⟨_, _, rfl, by decide⟩

theorem readValue_literal {w : List Char} {v : Json} (h : (w, v) ∈ literals) (fuel : ℕ)
    (rest : List Char) : readValue (fuel + 1) (w ++ rest) = some (v, rest) := by
  simp only [literals, List.mem_cons, Prod.mk.injEq, List.not_mem_nil, or_false] at h
  rcases h with ⟨rfl, rfl⟩ | ⟨rfl, rfl⟩ | ⟨rfl, rfl⟩ | ⟨rfl, rfl⟩ | ⟨rfl, rfl⟩ | ⟨rfl, rfl⟩ <;> rfl

theorem readValue_dumpsFloat {x : Double} (h : ReadsFloat floatRepr x) (hrest : EndsNumber rest)
    (fuel : ℕ) : readValue (fuel + 1) (dumpsFloat floatRepr x ++ rest) = some (.float x, rest) := by
  cases x with
  | nan => exact readValue_literal (w := "NaN".toList) (by simp [literals]) fuel rest
  | inf => exact readValue_literal (w := "Infinity".toList) (by simp [literals]) fuel rest
  | negInf => exact readValue_literal (w := "-Infinity".toList) (by simp [literals]) fuel rest
  | finite q =>
    refine readValue_of_readNumber ?_ fuel
    show readNumber (floatRepr (.finite q) ++ rest) = _
    rw [readNumber_append hrest, h ⟨q, rfl⟩]
    rfl

/-- A string is read back, whatever comes after it. -/
theorem readStr_dumpsStr (s : String) (rest : List Char) :
    ∃ cs, dumpsStr s ++ rest = '"' :: cs ∧ readStr cs.length cs = some (s.toList, rest) := by
  refine ⟨s.toList.flatMap escape ++ '"' :: rest, ?_, ?_⟩
  · rw [dumpsStr, List.cons_append, List.append_assoc, List.singleton_append]
  · refine readStr_dumps s.toList rest _ ?_
    have hescape : ∀ cs : List Char, cs.length ≤ (cs.flatMap escape).length := by
      intro cs
      induction cs with
      | nil => exact Nat.le_refl 0
      | cons c cs ih =>
        have hc : 1 ≤ (escape c).length := by
          unfold escape
          split
          · simp
          · split_ifs <;> simp [unicodeEscape]
        rw [List.flatMap_cons, List.length_append, List.length_cons]
        omega
    rw [List.length_append, List.length_cons]
    exact Nat.lt_of_le_of_lt (hescape _) (by omega)

theorem skipWs_dumpsStr (s : String) (rest : List Char) :
    skipWs (dumpsStr s ++ rest) = dumpsStr s ++ rest := skipWs_cons (by decide) _

/-- What is read at the start of an array. -/
theorem readValue_array {cs : List Char} (h : Starts (skipWs cs)) (fuel : ℕ) :
    readValue (fuel + 1) ('[' :: cs) =
      (readElements fuel (skipWs cs)).map fun p => (.arr p.1, p.2) := by
  obtain ⟨c, cs', hcs, -, hc⟩ := h
  rw [readValue, hcs]
  split
  · rename_i heq
    exact absurd (List.cons.inj heq).1 hc
  · rfl

theorem readValue_object {cs : List Char} (h : ∃ cs', skipWs cs = '"' :: cs') (fuel : ℕ) :
    readValue (fuel + 1) ('{' :: cs) =
      (readEntries fuel (skipWs cs)).map fun p => (.obj (Json.toDict p.1).entries, p.2) := by
  obtain ⟨cs', hcs⟩ := h
  rw [readValue, hcs]
  split
  · rename_i heq
    exact absurd (List.cons.inj heq).1 (by decide)
  · rfl

/-- The dictionary of an object without a repeated key is the object. -/
theorem entries_toDict {l : List (String × Json)} (h : (l.map Prod.fst).Nodup) :
    (Json.toDict l).entries = l := by
  rw [Json.toDict, Dict.entries_setAll h (by simp)]
  rfl

mutual

/-- A value is read back, with what comes after it. -/
theorem readValue_dumpsAt : ∀ (v : Json) (depth fuel : ℕ) (rest : List Char),
    Writable floatRepr v → EndsNumber rest → (dumpsAt L floatRepr depth v).length ≤ fuel →
    readValue fuel (dumpsAt L floatRepr depth v ++ rest) = some (v, rest)
  | v, depth, 0, rest, hv, _, hfuel => by
    obtain ⟨c, cs, hcs, -⟩ := starts_dumpsAt (L := L) depth hv
    rw [hcs] at hfuel
    cases hfuel
  | .null, _, fuel + 1, rest, _, _, _ =>
    readValue_literal (w := "null".toList) (by simp [literals]) fuel rest
  | .bool true, _, fuel + 1, rest, _, _, _ =>
    readValue_literal (w := "true".toList) (by simp [literals]) fuel rest
  | .bool false, _, fuel + 1, rest, _, _, _ =>
    readValue_literal (w := "false".toList) (by simp [literals]) fuel rest
  | .int n, _, fuel + 1, rest, hv, hrest, _ => by
    refine readValue_of_readNumber ?_ fuel
    rw [dumpsAt, readNumber_append hrest, readNumber_dumpsInt hv]
    rfl
  | .float x, _, fuel + 1, rest, hv, hrest, _ => readValue_dumpsFloat hv hrest fuel
  | .str s, _, fuel + 1, rest, _, _, _ => by
    obtain ⟨cs, hcs, hread⟩ := readStr_dumpsStr s rest
    rw [dumpsAt, hcs, readValue, hread]
    simp
  | .arr [], _, fuel + 1, rest, _, _, _ => rfl
  | .arr (v :: l), depth, fuel + 1, rest, hv, _, hfuel => by
    rw [dumpsAt] at hfuel ⊢
    simp only [List.length_cons, List.length_append] at hfuel
    have hstart := (starts_dumpsAt (L := L) (depth + 1) hv.1).append
      (dumpsElements L floatRepr (depth + 1) l ++ (L.gap depth ++ ']' :: rest))
    have helements := readElements_dumps l v (depth + 1) fuel (L.gap depth) rest hv.1 hv.2
      (L.isWs_gap depth)
      (fun fuel rest hrest hlen => readValue_dumpsAt v (depth + 1) fuel rest hv.1 hrest hlen)
        (by omega)
    simp only [List.cons_append, List.append_assoc, List.nil_append]
    rw [readValue_array]
    · rw [skipWs_append (L.isWs_gap _), hstart.skipWs, helements]
      rfl
    · rw [skipWs_append (L.isWs_gap _), hstart.skipWs]
      exact hstart
  | .obj [], _, fuel + 1, rest, _, _, _ => rfl
  | .obj ((k, v) :: l), depth, fuel + 1, rest, hv, _, hfuel => by
    rw [dumpsAt] at hfuel ⊢
    simp only [List.length_cons, List.length_append] at hfuel
    obtain ⟨hnodup, hfirst, hothers⟩ := hv
    have hentries := readEntries_dumps l k v (depth + 1) fuel (L.gap depth) rest hfirst hothers
      (L.isWs_gap depth)
      (fun fuel rest hrest hlen => readValue_dumpsAt v (depth + 1) fuel rest hfirst hrest hlen)
      (by omega)
    simp only [List.cons_append, List.append_assoc, List.nil_append]
    rw [readValue_object]
    · rw [skipWs_append (L.isWs_gap _), skipWs_dumpsStr, hentries, Option.map_some,
        entries_toDict hnodup]
    · rw [skipWs_append (L.isWs_gap _), skipWs_dumpsStr]
      exact ⟨_, rfl⟩

/-- The elements of an array are read back, when the first one is. -/
theorem readElements_dumps : ∀ (l : List Json) (v : Json) (depth fuel : ℕ) (close rest : List Char),
    Writable floatRepr v → WritableElements floatRepr l → (∀ c ∈ close, isWs c = true) →
    (∀ fuel rest, EndsNumber rest → (dumpsAt L floatRepr depth v).length ≤ fuel →
      readValue fuel (dumpsAt L floatRepr depth v ++ rest) = some (v, rest)) →
    (dumpsAt L floatRepr depth v).length + (dumpsElements L floatRepr depth l).length < fuel →
    readElements fuel (dumpsAt L floatRepr depth v ++ (dumpsElements L floatRepr depth l ++
      (close ++ ']' :: rest))) = some (v :: l, rest)
  | _, _, _, 0, _, _, _, _, _, _, hfuel => by cases hfuel
  | [], v, depth, fuel + 1, close, rest, hv, _, hclose, hread, hfuel => by
    have hrest : EndsNumber (close ++ ']' :: rest) := endsNumber_append close hclose (by simp) rest
    rw [readElements, dumpsElements, List.nil_append, hread fuel _ hrest (by omega)]
    simp only [Option.bind_eq_bind, Option.bind_some]
    rw [skipWs_append hclose, skipWs_cons (by decide)]
    rfl
  | v' :: l, v, depth, fuel + 1, close, rest, hv, hl, hclose, hread, hfuel => by
    have hstart := (starts_dumpsAt (L := L) depth hl.1).append
      (dumpsElements L floatRepr depth l ++ (close ++ ']' :: rest))
    rw [dumpsElements, List.length_cons, List.length_append, List.length_append] at hfuel
    have hnext := readElements_dumps l v' depth fuel close rest hl.1 hl.2 hclose
      (fun fuel rest hrest hlen => readValue_dumpsAt v' depth fuel rest hl.1 hrest hlen) (by omega)
    rw [readElements, dumpsElements]
    simp only [List.cons_append, List.append_assoc]
    rw [hread fuel _ (endsNumber_comma _) (by omega)]
    simp only [Option.bind_eq_bind, Option.bind_some]
    rw [skipWs_cons (by decide)]
    simp only []
    rw [skipWs_append (L.isWs_item depth), hstart.skipWs, hnext]
    rfl

/-- The entries of an object are read back, when the value of the first one is. -/
theorem readEntries_dumps : ∀ (l : List (String × Json)) (k : String) (v : Json) (depth fuel : ℕ)
    (close rest : List Char),
    Writable floatRepr v → WritableEntries floatRepr l → (∀ c ∈ close, isWs c = true) →
    (∀ fuel rest, EndsNumber rest → (dumpsAt L floatRepr depth v).length ≤ fuel →
      readValue fuel (dumpsAt L floatRepr depth v ++ rest) = some (v, rest)) →
    (dumpsAt L floatRepr depth v).length + (dumpsEntries L floatRepr depth l).length < fuel →
    readEntries fuel (dumpsStr k ++ (':' :: (L.colon ++ (dumpsAt L floatRepr depth v ++
      (dumpsEntries L floatRepr depth l ++ (close ++ '}' :: rest)))))) = some ((k, v) :: l, rest)
  | _, _, _, _, 0, _, _, _, _, _, _, hfuel => by cases hfuel
  | [], k, v, depth, fuel + 1, close, rest, hv, _, hclose, hread, hfuel => by
    obtain ⟨cs, hcs, hkey⟩ := readStr_dumpsStr k (':' :: (L.colon ++ (dumpsAt L floatRepr depth v ++
      (dumpsEntries L floatRepr depth [] ++ (close ++ '}' :: rest)))))
    have hrest : EndsNumber (close ++ '}' :: rest) := endsNumber_append close hclose (by simp) rest
    have hstart := (starts_dumpsAt (L := L) depth hv).append (close ++ '}' :: rest)
    rw [hcs, readEntries, hkey]
    simp only [Option.bind_eq_bind, Option.bind_some]
    rw [skipWs_cons (by decide)]
    simp only []
    rw [skipWs_append L.isWs_colon, dumpsEntries, List.nil_append, hstart.skipWs,
      hread fuel _ hrest (by omega)]
    simp only [Option.bind_some]
    rw [skipWs_append hclose, skipWs_cons (by decide)]
    simp
  | (k', v') :: l, k, v, depth, fuel + 1, close, rest, hv, hl, hclose, hread, hfuel => by
    rw [dumpsEntries] at hfuel ⊢
    simp only [List.length_cons, List.length_append] at hfuel
    have hnext := readEntries_dumps l k' v' depth fuel close rest hl.1 hl.2 hclose
      (fun fuel rest hrest hlen => readValue_dumpsAt v' depth fuel rest hl.1 hrest hlen) (by omega)
    simp only [List.cons_append, List.append_assoc]
    obtain ⟨cs, hcs, hkey⟩ := readStr_dumpsStr k (':' :: (L.colon ++ (dumpsAt L floatRepr depth v ++
      ',' :: (L.item depth ++ (dumpsStr k' ++ ':' :: (L.colon ++ (dumpsAt L floatRepr depth v' ++
        (dumpsEntries L floatRepr depth l ++ (close ++ '}' :: rest)))))))))
    have hstart := starts_dumpsAt (L := L) depth hv
    rw [hcs, readEntries, hkey]
    simp only [Option.bind_eq_bind, Option.bind_some]
    rw [skipWs_cons (by decide)]
    simp only []
    rw [skipWs_append L.isWs_colon, (hstart.append _).skipWs,
      hread fuel _ (endsNumber_comma _) (by omega)]
    simp only [Option.bind_some]
    rw [skipWs_cons (by decide)]
    simp only []
    rw [skipWs_append (L.isWs_item depth), skipWs_dumpsStr, hnext]
    simp

end

/-- **What has been written is read back.** -/
theorem loads_dumps {v : Json} (hv : Writable floatRepr v) :
    loads (dumps L floatRepr v) = some v := by
  have hread := readValue_dumpsAt (L := L) v 0 _ [] hv endsNumber_nil le_rfl
  rw [List.append_nil] at hread
  rw [loads, dumps, String.toList_ofList, (starts_dumpsAt (L := L) 0 hv).skipWs, hread]
  rfl

end RoundTrip

/-- Everything is on one line. -/
structure Layout.Inline (L : Layout) : Prop where
  gap : ∀ depth, ∀ c ∈ L.gap depth, Printable c
  item : ∀ depth, ∀ c ∈ L.item depth, Printable c
  colon : ∀ c ∈ L.colon, Printable c

theorem Layout.inline_compact : Layout.compact.Inline where
  gap _ _ hc := by cases hc
  item _ _ hc := by cases hc
  colon _ hc := by cases hc

theorem Layout.inline_plain : Layout.plain.Inline where
  gap _ _ hc := by cases hc
  item _ c hc := by rw [List.mem_singleton.mp hc]; decide
  colon c hc := by rw [List.mem_singleton.mp hc]; decide

section Printable

variable {L : Layout} {floatRepr : Double → List Char}

theorem printable_dumpsFloat {x : Double} (h : ReadsFloat floatRepr x) :
    ∀ c ∈ dumpsFloat floatRepr x, Printable c := by
  cases x with
  | finite q => exact printable_of_readNumber (h ⟨q, rfl⟩)
  | nan =>
    exact printable_of_all (rfl : "NaN".toList.all (fun c => decide (Printable c)) = true)
  | inf =>
    exact printable_of_all (rfl : "Infinity".toList.all (fun c => decide (Printable c)) = true)
  | negInf =>
    exact printable_of_all (rfl : "-Infinity".toList.all (fun c => decide (Printable c)) = true)

mutual

theorem printable_dumpsAt (hL : L.Inline) : ∀ (v : Json) (depth : ℕ), Writable floatRepr v →
    ∀ c ∈ dumpsAt L floatRepr depth v, Printable c
  | .null, _, _ => by rw [dumpsAt]; exact printable_of_all (by decide)
  | .bool true, _, _ => by rw [dumpsAt]; exact printable_of_all (by decide)
  | .bool false, _, _ => by rw [dumpsAt]; exact printable_of_all (by decide)
  | .int n, _, _ => by rw [dumpsAt]; exact printable_dumpsInt n
  | .float x, _, h => by rw [dumpsAt]; exact printable_dumpsFloat h
  | .str s, _, _ => by rw [dumpsAt]; exact printable_dumpsStr s
  | .arr [], _, _ => by rw [dumpsAt]; exact printable_of_all (by decide)
  | .arr (v :: l), depth, h => by
    have hv := printable_dumpsAt hL v (depth + 1) h.1
    have hl := printable_dumpsElements hL l (depth + 1) h.2
    intro c hc
    simp only [dumpsAt, List.mem_cons, List.mem_append, List.not_mem_nil, or_false] at hc
    rcases hc with rfl | hc | hc | hc | hc | rfl
    · decide
    · exact hL.gap _ c hc
    · exact hv c hc
    · exact hl c hc
    · exact hL.gap _ c hc
    · decide
  | .obj [], _, _ => by rw [dumpsAt]; exact printable_of_all (by decide)
  | .obj ((k, v) :: l), depth, h => by
    have hv := printable_dumpsAt hL v (depth + 1) h.2.1
    have hl := printable_dumpsEntries hL l (depth + 1) h.2.2
    intro c hc
    simp only [dumpsAt, List.mem_cons, List.mem_append, List.not_mem_nil, or_false] at hc
    rcases hc with rfl | hc | hc | (rfl | hc) | hc | hc | hc | rfl
    · decide
    · exact hL.gap _ c hc
    · exact printable_dumpsStr k c hc
    · decide
    · exact hL.colon c hc
    · exact hv c hc
    · exact hl c hc
    · exact hL.gap _ c hc
    · decide

theorem printable_dumpsElements (hL : L.Inline) : ∀ (l : List Json) (depth : ℕ),
    WritableElements floatRepr l → ∀ c ∈ dumpsElements L floatRepr depth l, Printable c
  | [], _, _ => fun c hc => by cases hc
  | v :: l, depth, h => by
    have hv := printable_dumpsAt hL v depth h.1
    have hl := printable_dumpsElements hL l depth h.2
    intro c hc
    simp only [dumpsElements, List.mem_cons, List.mem_append] at hc
    rcases hc with rfl | hc | hc | hc
    · decide
    · exact hL.item _ c hc
    · exact hv c hc
    · exact hl c hc

theorem printable_dumpsEntries (hL : L.Inline) : ∀ (l : List (String × Json)) (depth : ℕ),
    WritableEntries floatRepr l → ∀ c ∈ dumpsEntries L floatRepr depth l, Printable c
  | [], _, _ => fun c hc => by cases hc
  | (k, v) :: l, depth, h => by
    have hv := printable_dumpsAt hL v depth h.1
    have hl := printable_dumpsEntries hL l depth h.2
    intro c hc
    simp only [dumpsEntries, List.mem_cons, List.mem_append] at hc
    rcases hc with rfl | hc | hc | (rfl | hc) | hc | hc
    · decide
    · exact hL.item _ c hc
    · exact printable_dumpsStr k c hc
    · decide
    · exact hL.colon c hc
    · exact hv c hc
    · exact hl c hc

end

/-- **What is written on one line** is printable ASCII, whatever the strings in the value are. -/
theorem printable_dumps (hL : L.Inline) {v : Json} (hv : Writable floatRepr v) :
    ∀ c ∈ (dumps L floatRepr v).toList, Printable c := by
  rw [dumps, String.toList_ofList]
  exact printable_dumpsAt hL v 0 hv

end Printable

end JsonText

end SlmMcpHub
