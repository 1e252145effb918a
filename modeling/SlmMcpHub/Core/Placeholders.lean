import SlmMcpHub.Auth.AccountKey
import SlmMcpHub.Library.Replacement

/-!
# Placeholders, one after the other or all at once

`_resolve_env_vars` of `core/config.py` goes over a config string twice, first for `${env:VAR}` and
then, over what has become of it, for `${VAR}`. To see what that does to the text of an environment
value, every character is given with where it comes from.

## Main definitions

* `Form.rule` — a pass, as a rule of replacement
* `simultaneous` — what one substitution of both makes of a config string
* `Sourced` — a character with its origin
* `SubstitutesOnce` — `_resolve_env_vars` makes the same of it, by origins also
* `Confined` — no placeholder with text of a value in it makes a difference

## Main results

* `resolveEnvVars_eq` — the passes are replacements
* `substitutesOnce_iff`
-/

namespace SlmMcpHub

namespace Placeholder

open Replacement

/-! ### The passes -/

/-- The syntaxes of a placeholder. -/
inductive Form where
  /-- `${env:VAR}` -/
  | env
  /-- `${VAR}` -/
  | plain
  deriving DecidableEq

def Form.opening : Form → List Char
  | .env => ['$', '{', 'e', 'n', 'v', ':']
  | .plain => ['$', '{']

def Form.isName : Form → Char → Bool
  | .env => (· ≠ '}')
  | .plain => fun c => c ≠ '}' && c ≠ ':'

def isBrace (c : Char) : Bool := c = '}'

/-- The name in a text that is a placeholder. -/
def Form.name? (form : Form) (text : List Char) : Option (List Char) :=
  match placeholder? form.opening form.isName text with
  | some (name, length) => if length = text.length then some name else none
  | none => none

theorem Form.isName_brace (form : Form) : form.isName '}' = false := by
  cases form <;> rfl

theorem Form.open_opening (form : Form) : Open isBrace form.opening := by
  cases form <;> simp [Open, Form.opening, isBrace]

theorem placeholder?_eq_some_iff {form : Form} {text name : List Char} {n : ℕ} :
    placeholder? form.opening form.isName text = some (name, n) ↔
      name ≠ [] ∧ (∀ c ∈ name, form.isName c = true) ∧
        n = (form.opening ++ name ++ ['}']).length ∧
        ∃ rest, text = form.opening ++ name ++ ['}'] ++ rest := by
  unfold placeholder?
  constructor
  · intro h
    split at h
    · next hopening =>
      obtain ⟨rest, rfl⟩ := hopening
      simp only [List.drop_left] at h
      split at h
      · next hname =>
        obtain ⟨hne, hclose⟩ := hname
        cases h
        have hsplit := List.takeWhile_append_dropWhile (p := form.isName) (l := rest)
        have hdrop : (form.opening ++ rest).drop
            (form.opening.length + (rest.takeWhile form.isName).length) =
              rest.dropWhile form.isName := by
          rw [← List.drop_drop, List.drop_left]
          have h := congrArg (List.drop (rest.takeWhile form.isName).length) hsplit
          rw [List.drop_left] at h
          exact h.symm
        rw [hdrop, List.head?_eq_some_iff] at hclose
        obtain ⟨rest', hrest'⟩ := hclose
        refine ⟨hne, fun c hc => List.mem_takeWhile_imp hc, by simp; omega, rest', ?_⟩
        rw [hrest'] at hsplit
        conv_lhs => rw [← hsplit]
        simp
      · cases h
    · cases h
  · rintro ⟨hne, hall, rfl, rest, rfl⟩
    have htext : form.opening ++ name ++ ['}'] ++ rest = form.opening ++ (name ++ '}' :: rest) := by
      simp
    have hname : (name ++ '}' :: rest).takeWhile form.isName = name := by
      rw [List.takeWhile_append_of_pos hall,
        List.takeWhile_cons_of_neg (by simp [form.isName_brace]), List.append_nil]
    rw [htext, if_pos (List.prefix_append ..), List.drop_left, hname, if_pos]
    · simp
      omega
    · refine ⟨hne, ?_⟩
      rw [← List.drop_drop, List.drop_left, List.drop_left, List.head?_cons]

theorem Form.name?_eq_some_iff {form : Form} {text name : List Char} :
    form.name? text = some name ↔
      name ≠ [] ∧ (∀ c ∈ name, form.isName c = true) ∧ text = form.opening ++ name ++ ['}'] := by
  unfold Form.name?
  constructor
  · intro h
    split at h
    · next name' n hplaceholder =>
      obtain ⟨hne, hall, hn, rest, hrest⟩ := placeholder?_eq_some_iff.mp hplaceholder
      split at h
      · next hlength =>
        cases h
        refine ⟨hne, hall, ?_⟩
        have hnil : rest = [] := by simpa [hn, hrest] using hlength
        rw [hrest, hnil, List.append_nil]
      · cases h
    · cases h
  · rintro ⟨hne, hall, rfl⟩
    rw [placeholder?_eq_some_iff.mpr ⟨hne, hall, rfl, [], (List.append_nil _).symm⟩]
    exact if_pos rfl

theorem Form.block_of_name? {form : Form} {text : List Char} (h : (form.name? text).isSome = true) :
    Block isBrace text := by
  obtain ⟨name, hname⟩ := Option.isSome_iff_exists.mp h
  obtain ⟨-, hall, rfl⟩ := Form.name?_eq_some_iff.mp hname
  refine block_mk (fun c hc => ?_) rfl
  rcases List.mem_append.mp hc with hc | hc
  · exact form.open_opening c hc
  · by_contra hbrace
    have hc' := hall c hc
    rw [of_decide_eq_true (Bool.of_not_eq_false hbrace), form.isName_brace] at hc'
    cases hc'

/-- A pass of `_resolve_env_vars`, with `_replacer`. -/
def Form.rule (environ : String → Option String) (form : Form) : Rule isBrace where
  isMatch text := (form.name? text).isSome
  value text :=
    (form.name? text).bind fun name => (environ (String.ofList name)).map String.toList
  block := Form.block_of_name?

theorem match?_of_some (environ : String → Option String) {form : Form} {text name : List Char}
    {n : ℕ} (h : placeholder? form.opening form.isName text = some (name, n)) :
    (form.rule environ).match? text = some (text.take n) ∧
      (form.rule environ).value (text.take n) =
        (environ (String.ofList name)).map String.toList := by
  obtain ⟨hne, hall, rfl, rest, rfl⟩ := placeholder?_eq_some_iff.mp h
  have hname : form.name? (form.opening ++ name ++ ['}']) = some name :=
    Form.name?_eq_some_iff.mpr ⟨hne, hall, rfl⟩
  have hisMatch : (form.rule environ).isMatch (form.opening ++ name ++ ['}']) = true :=
    Option.isSome_iff_exists.mpr ⟨name, hname⟩
  have hopen : Open isBrace (form.opening ++ name) :=
    ((form.rule environ).block hisMatch).open_of_append (List.cons_ne_nil _ _)
  rw [List.take_left]
  constructor
  · have hmatch := Rule.match?_block (R := form.rule environ) hopen (b := '}') rfl rest
    rwa [hisMatch, if_pos rfl, List.append_cons] at hmatch
  · exact congrArg (Option.bind · _) hname

theorem match?_of_none {environ : String → Option String} {form : Form} {text : List Char}
    (h : placeholder? form.opening form.isName text = none) :
    (form.rule environ).match? text = none := by
  by_contra hsome
  obtain ⟨m, hm⟩ := Option.ne_none_iff_exists'.mp hsome
  obtain ⟨hisMatch, rest, rfl⟩ := Rule.match?_spec hm
  obtain ⟨name, hname⟩ := Option.isSome_iff_exists.mp hisMatch
  obtain ⟨hne, hall, rfl⟩ := Form.name?_eq_some_iff.mp hname
  rw [placeholder?_eq_some_iff.mpr ⟨hne, hall, rfl, rest, rfl⟩] at h
  cases h

/-- A pass is the replacement of its placeholders. -/
theorem substitute_eq {environ : String → Option String} {form : Form} (skip : ℕ)
    (text : List Char) : substitute environ form.opening form.isName skip text =
      (form.rule environ).replaceFrom skip text := by
  induction text generalizing skip with
  | nil => cases skip <;> rfl
  | cons c rest ih =>
    cases skip with
    | succ skip => exact ih skip
    | zero =>
      rw [substitute, if_neg (not_not.mpr rfl), Rule.replaceFrom]
      cases h : placeholder? form.opening form.isName (c :: rest) with
      | none =>
        rw [match?_of_none h]
        exact congrArg (c :: ·) (ih 0)
      | some x =>
        obtain ⟨hmatch, hvalue⟩ := match?_of_some environ h
        have hlength : ((c :: rest).take x.2).length = x.2 := by
          obtain ⟨-, -, hn, rest', hrest'⟩ := placeholder?_eq_some_iff.mp h
          rw [hrest', hn, List.take_left]
        rw [hmatch]
        simp only [Rule.result, hvalue, hlength, ih]

theorem resolveEnvVars_eq (environ : String → Option String) (value : String) :
    resolveEnvVars environ value = String.ofList ((Form.plain.rule environ).replace
      ((Form.env.rule environ).replace value.toList)) := by
  have h : resolveEnvVars environ value = String.ofList
      (substitute environ Form.plain.opening Form.plain.isName 0
        (substitute environ Form.env.opening Form.env.isName 0 value.toList)) := rfl
  rw [h, substitute_eq, substitute_eq]
  rfl

/-! ### All at once -/

/-- One substitution of both syntaxes. A value is put in as it is, and of a placeholder of the first
syntax without a value what is in it may be one of the second. -/
def simultaneous (environ : String → Option String) (value : String) : String :=
  String.ofList (replaceBoth (Form.env.rule environ) (Form.plain.rule environ) value.toList)

/-- Where a character comes from. -/
inductive Origin where
  /-- It is in the config string, at that place. -/
  | kept (position : ℕ)
  /-- It is in a value, at that place, that was put in for text whose characters have been at these
  places of the config string. -/
  | value (form : Form) (text : List (Option ℕ)) (offset : ℕ)
  deriving DecidableEq

def Origin.position? : Origin → Option ℕ
  | .kept position => some position
  | .value .. => none

/-- A character with its origin. -/
structure Sourced where
  char : Char
  origin : Origin
  deriving DecidableEq

/-- The config string, as what it is itself. -/
def sourced (value : String) : List Sourced :=
  value.toList.zipIdx.map fun x => ⟨x.1, .kept x.2⟩

/-- A value, as put in for a text. -/
def putIn (form : Form) (text : List Sourced) (v : List Char) : List Sourced :=
  v.zipIdx.map fun x => ⟨x.1, .value form (text.map (·.origin.position?)) x.2⟩

/-- A pass that keeps the origins. -/
def Form.sourcedRule (environ : String → Option String) (form : Form) :
    Rule (isBrace ∘ Sourced.char) :=
  (form.rule environ).comap Sourced.char (putIn form)

/-- The config string after the first pass. -/
def filledIn (environ : String → Option String) (value : String) : List Sourced :=
  (Form.env.sourcedRule environ).replace (sourced value)

/-- `_resolve_env_vars`, with the origins. -/
def resolveSourced (environ : String → Option String) (value : String) : List Sourced :=
  (Form.plain.sourcedRule environ).replace (filledIn environ value)

/-- One substitution of both syntaxes, with the origins. -/
def simultaneousSourced (environ : String → Option String) (value : String) : List Sourced :=
  replaceBoth (Form.env.sourcedRule environ) (Form.plain.sourcedRule environ) (sourced value)

/-- `_resolve_env_vars` is one substitution: it comes to the same text, and each character of it is
the one of the config string, or of the value of the placeholder of the config string, that it is
there. -/
structure SubstitutesOnce (environ : String → Option String) (value : String) : Prop where
  text : resolveEnvVars environ value = simultaneous environ value
  sources : resolveSourced environ value = simultaneousSourced environ value

theorem map_char_putIn (form : Form) (text : List Sourced) (v : List Char) :
    (putIn form text v).map Sourced.char = v := by
  rw [putIn, List.map_map]
  exact List.zipIdx_map_fst 0 v

theorem map_char_sourced (value : String) : (sourced value).map Sourced.char = value.toList := by
  rw [sourced, List.map_map]
  exact List.zipIdx_map_fst 0 value.toList

theorem map_char_resolveSourced (environ : String → Option String) (value : String) :
    String.ofList ((resolveSourced environ value).map Sourced.char) =
      resolveEnvVars environ value := by
  rw [resolveSourced, filledIn, Form.sourcedRule, Form.sourcedRule,
    map_replace_comap (map_char_putIn .plain), map_replace_comap (map_char_putIn .env),
    map_char_sourced, resolveEnvVars_eq]

theorem map_char_simultaneousSourced (environ : String → Option String) (value : String) :
    String.ofList ((simultaneousSourced environ value).map Sourced.char) =
      simultaneous environ value := by
  rw [simultaneousSourced, Form.sourcedRule, Form.sourcedRule,
    map_replaceBoth_comap (map_char_putIn .env) (map_char_putIn .plain), map_char_sourced,
    simultaneous]

/-- With the same origins the text is the same. -/
theorem substitutesOnce_of_sources {environ : String → Option String} {value : String}
    (h : resolveSourced environ value = simultaneousSourced environ value) :
    SubstitutesOnce environ value where
  text := by rw [← map_char_resolveSourced, h, map_char_simultaneousSourced]
  sources := h

/-! ### Origins tell the characters apart -/

theorem position?_sourced (value : String) :
    (sourced value).map (·.origin.position?) = (List.range value.toList.length).map some := by
  rw [sourced, List.map_map, List.range_eq_range', ← List.zipIdx_map_snd 0 value.toList,
    List.map_map]
  rfl

theorem nodup_position? (value : String) : ((sourced value).map (·.origin.position?)).Nodup := by
  rw [position?_sourced]
  exact List.nodup_range.map (Option.some_injective ℕ)

theorem nodup_sourced (value : String) : (sourced value).Nodup := (nodup_position? value).of_map

theorem exists_position_of_mem_sourced {value : String} {a : Sourced} (h : a ∈ sourced value) :
    ∃ i, a.origin = .kept i := by
  obtain ⟨x, -, rfl⟩ := List.mem_map.mp h
  exact ⟨x.2, rfl⟩

theorem exists_origin_of_mem_putIn {form : Form} {text : List Sourced} {v : List Char} {a : Sourced}
    (h : a ∈ putIn form text v) :
    ∃ i, a.origin = .value form (text.map (·.origin.position?)) i := by
  obtain ⟨x, -, rfl⟩ := List.mem_map.mp h
  exact ⟨x.2, rfl⟩

theorem nodup_putIn (form : Form) (text : List Sourced) (v : List Char) :
    (putIn form text v).Nodup := by
  have hoffset : ((v.zipIdx).map Prod.snd).Nodup := by
    rw [List.zipIdx_map_snd]
    exact List.nodup_range'
  refine hoffset.of_map.map fun x y hxy => ?_
  cases x
  cases y
  cases hxy
  rfl

/-- Parts of a list are the same if a function that tells its elements apart has the same values on
them. -/
theorem eq_of_map_eq {α β : Type*} {f : α → β} {l m m' : List α} (hf : (l.map f).Nodup)
    (hm : m ⊆ l) (hm' : m' ⊆ l) (h : m.map f = m'.map f) : m = m' := by
  induction m generalizing m' with
  | nil => exact (List.map_eq_nil_iff.mp h.symm).symm
  | cons a m ih =>
    obtain ⟨b, t, rfl, hb, ht⟩ := List.map_eq_cons_iff.mp h.symm
    have hab : a = b := List.inj_on_of_nodup_map hf (hm (List.mem_cons_self ..))
      (hm' (List.mem_cons_self ..)) hb.symm
    rw [hab, ih (List.subset_of_cons_subset hm) (List.subset_of_cons_subset hm') ht.symm]

theorem value_sourcedRule {environ : String → Option String} {form : Form} {m v : List Sourced}
    (h : (form.sourcedRule environ).value m = some v) : ∃ w, v = putIn form m w := by
  obtain ⟨w, -, rfl⟩ := Option.map_eq_some_iff.mp h
  exact ⟨w, rfl⟩

theorem fresh_sourced (environ : String → Option String) (value : String) :
    (Form.env.sourcedRule environ).Fresh (sourced value) where
  new {m v} hv a ha hin := by
    obtain ⟨w, rfl⟩ := value_sourcedRule hv
    obtain ⟨i, hi⟩ := exists_origin_of_mem_putIn ha
    obtain ⟨j, hj⟩ := exists_position_of_mem_sourced hin
    cases hi.symm.trans hj
  nodup {m v} hv := by
    obtain ⟨w, rfl⟩ := value_sourcedRule hv
    exact nodup_putIn .env m w
  apart {m m' v v'} hm hm' hv hv' a ha ha' := by
    obtain ⟨w, rfl⟩ := value_sourcedRule hv
    obtain ⟨w', rfl⟩ := value_sourcedRule hv'
    obtain ⟨i, hi⟩ := exists_origin_of_mem_putIn ha
    obtain ⟨i', hi'⟩ := exists_origin_of_mem_putIn ha'
    have htext := Origin.value.inj (hi.symm.trans hi')
    exact eq_of_map_eq (nodup_position? value) hm.subset hm'.subset htext.2.1

theorem new_filledIn (environ : String → Option String) {value : String} {m v : List Sourced}
    (hv : (Form.plain.sourcedRule environ).value m = some v) :
    ∀ a ∈ v, a ∉ filledIn environ value := by
  intro a ha hin
  obtain ⟨w, rfl⟩ := value_sourcedRule hv
  obtain ⟨i, hi⟩ := exists_origin_of_mem_putIn ha
  rcases Rule.mem_of_mem_replace hin with hin | ⟨m', v', -, -, hv', hin⟩
  · obtain ⟨j, hj⟩ := exists_position_of_mem_sourced hin
    cases hi.symm.trans hj
  · obtain ⟨w', rfl⟩ := value_sourcedRule hv'
    obtain ⟨j, hj⟩ := exists_origin_of_mem_putIn hin
    cases hi.symm.trans hj

/-- No placeholder of the first syntax is the end of one of the second. -/
theorem isMatch_env_of_suffix {environ : String → Option String} {m s : List Sourced}
    (h : (Form.plain.sourcedRule environ).isMatch m = true) (hs : s <:+ m) :
    (Form.env.sourcedRule environ).isMatch s = false := by
  by_contra hsome
  obtain ⟨name, hname⟩ := Option.isSome_iff_exists.mp h
  obtain ⟨-, hall, htext⟩ := Form.name?_eq_some_iff.mp hname
  obtain ⟨name', hname'⟩ := Option.isSome_iff_exists.mp (Bool.of_not_eq_false hsome)
  obtain ⟨-, -, htext'⟩ := Form.name?_eq_some_iff.mp hname'
  -- the colon
  have hcolon : ':' ∈ m.map Sourced.char := by
    refine (hs.map Sourced.char).subset ?_
    rw [htext']
    simp [Form.opening]
  rw [htext] at hcolon
  have hin : ':' ∈ name := by simpa [Form.opening] using hcolon
  exact absurd (hall ':' hin) (by decide)

/-! ### When it is all at once -/

/-- No placeholder `${VAR}` that a value takes part in makes a difference. Wherever the longest
placeholder that ends at a place of the filled in string is not text of the config string, its
variable is not set, and neither is that of the longest one that ends there and is. -/
def Confined (environ : String → Option String) (value : String) : Prop :=
  ∀ pre, pre <+: filledIn environ value →
    (Form.plain.sourcedRule environ).Confined (isPart (sourced value)) pre

theorem sources_eq_iff (environ : String → Option String) (value : String) :
    resolveSourced environ value = simultaneousSourced environ value ↔ Confined environ value :=
  replaceBoth_eq_iff (nodup_sourced value) (fresh_sourced environ value) (new_filledIn environ)
    isMatch_env_of_suffix

/-- **`_resolve_env_vars` is one substitution** just when no placeholder that a value takes part in
makes a difference. -/
theorem substitutesOnce_iff (environ : String → Option String) (value : String) :
    SubstitutesOnce environ value ↔ Confined environ value :=
  ⟨fun h => (sources_eq_iff environ value).mp h.sources, fun h =>
    substitutesOnce_of_sources ((sources_eq_iff environ value).mpr h)⟩

/-- It is one where no variable of a `${env:VAR}` is set. -/
theorem substitutesOnce_of_unset {environ : String → Option String} {value : String}
    (h : ∀ name, Form.env.opening ++ name ++ ['}'] <:+: value.toList →
      environ (String.ofList name) = none) : SubstitutesOnce environ value := by
  have hfilled : filledIn environ value = sourced value := by
    refine Rule.replace_eq_self fun m hm hmatch => ?_
    obtain ⟨name, hname⟩ := Option.isSome_iff_exists.mp hmatch
    obtain ⟨-, -, htext⟩ := Form.name?_eq_some_iff.mp hname
    have hpart := hm.map Sourced.char
    rw [htext, map_char_sourced] at hpart
    simp only [Form.sourcedRule, Rule.comap, Form.rule, hname, Option.bind_some, h name hpart,
      Option.map_none]
  refine substitutesOnce_of_sources ((sources_eq_iff environ value).mpr fun pre hpre x hx hp => ?_)
  obtain ⟨heq, -, -⟩ := Rule.first_spec hx
  rw [hfilled] at hpre
  have hpart : x.2 <:+: sourced value :=
    (heq ▸ List.suffix_append x.1 x.2 : x.2 <:+ pre).isInfix.trans hpre.isInfix
  exact absurd (isPart_iff.mpr hpart) (ne_true_of_eq_false hp)

/-- The value of `A` is the text of a placeholder. -/
def nestedEnviron (name : String) : Option String :=
  if name = "A" then some "${B}" else if name = "B" then some "secret" else none

/-- The second pass expands the value the first one has put in. -/
theorem not_substitutesOnce_of_nested : ¬ SubstitutesOnce nestedEnviron "${env:A}" := by
  intro h
  have htext := h.text
  revert htext
  decide +kernel

end Placeholder

end SlmMcpHub
