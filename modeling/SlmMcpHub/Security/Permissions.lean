import SlmMcpHub.Library.Glob
import Mathlib.Data.List.MinMax
import Mathlib.Data.Prod.Lex

/-!
# Permission rules

`security/permissions.py`. Which rule `check` applies is decided by the scopes of the rules that
match and by the first tool pattern of each, whether or not that pattern is one that matches.

## Main definitions

* `PermissionEngine.check`
* `Right` — the rule that should be applied
* `Beaten`, `Outranked` — another rule is more to the point, another rule comes first

## Main results

* `mem_argmax_rank_iff` — the rule that is applied
* `appliesRight_iff` — when it is the right one
* `longest_of_first` — the longest pattern wins, among rules whose first pattern is their longest
  one that matches
-/

namespace SlmMcpHub

namespace Security

/-- `PermissionAction` -/
inductive PermissionAction where
  | allow
  | deny
  | warn
  deriving DecidableEq

/-- `PermissionRule` -/
structure PermissionRule where
  /-- `global`, `session:<pattern>` or `project:<pattern>` -/
  scope : String
  server : String
  tools : List String := ["*"]
  action : PermissionAction := .allow
  deriving DecidableEq

/-- `specificity`: higher is more specific. -/
def PermissionRule.specificity (r : PermissionRule) : ℕ :=
  if "project:".toList <+: r.scope.toList then 3
  else if "session:".toList <+: r.scope.toList then 2
  else 1

/-- `PermissionResult` -/
structure PermissionResult where
  action : PermissionAction
  rule : Option PermissionRule := none
  message : String := ""
  deriving DecidableEq

/-- `allowed` -/
def PermissionResult.allowed (r : PermissionResult) : Bool := r.action ≠ .deny

/-- `PermissionEngine`, by its rules -/
structure PermissionEngine where
  rules : List PermissionRule

/-- What a rule is matched with; the first two are what is called, the others who calls it. -/
structure PermissionQuery where
  serverName : String
  toolName : String
  clientName : String := ""
  projectPath : String := ""

/-! ### Matching -/

/-- The scope after its kind. -/
def afterKind (kind scope : String) : String := String.ofList (scope.toList.drop kind.toList.length)

/-- `_matches_scope`, given what `lower` does -/
def matchesScope (lower : String → String) (scope clientName projectPath : String) : Bool :=
  if scope = "global" then true
  else if "session:".toList <+: scope.toList then
    fnmatch (lower clientName) (lower (afterKind "session:" scope))
  else if "project:".toList <+: scope.toList then
    fnmatch projectPath (afterKind "project:" scope)
  else false

/-- `_matches_server` -/
def matchesServer (ruleServer actualServer : String) : Bool :=
  ruleServer = "*" || fnmatch actualServer ruleServer

/-- A pattern of `_matches_tool` -/
def matchesPattern (actualTool pattern : String) : Bool :=
  pattern = "*" || fnmatch actualTool pattern

/-- `_matches_tool` -/
def matchesTool (ruleTools : List String) (actualTool : String) : Bool :=
  ruleTools.any (matchesPattern actualTool)

/-- `len(r.tools[0]) if r.tools else 0` -/
def PermissionRule.firstLength (r : PermissionRule) : ℕ := (r.tools.head?.map String.length).getD 0

/-- The key of `max` in `check` -/
def PermissionRule.rank (r : PermissionRule) : ℕ ×ₗ ℕ := toLex (r.specificity, r.firstLength)

/-- The length of the longest tool pattern of the rule that matches the tool. -/
def PermissionRule.longestMatch (r : PermissionRule) (tool : String) : ℕ :=
  ((r.tools.filter (matchesPattern tool)).map String.length).foldr max 0

namespace PermissionEngine

variable (lower : String → String) (s : PermissionEngine) (q : PermissionQuery)

/-- `matching` in `check` -/
def matching : List PermissionRule :=
  s.rules.filter fun rule =>
    matchesScope lower rule.scope q.clientName q.projectPath &&
      matchesServer rule.server q.serverName && matchesTool rule.tools q.toolName

/-- `check` -/
def check : PermissionResult :=
  -- `max` of Python keeps the first one of equal rank, and so does `argmax`
  match (s.matching lower q).argmax PermissionRule.rank with
  | none => { action := .allow }
  | some best =>
    match best.action with
    | .deny =>
      { action := best.action
        rule := some best
        message := "Permission denied: " ++ q.serverName ++ "/" ++ q.toolName ++
          " blocked by rule scope=" ++ best.scope }
    | .warn =>
      { action := best.action
        rule := some best
        message := "Permission warning: " ++ q.serverName ++ "/" ++ q.toolName ++
          " flagged by rule scope=" ++ best.scope }
    | .allow => { action := best.action, rule := some best }

/-! ### The rule that is applied -/

/-- The rule is the most specific one, its longest pattern that matches is as long as that of any
other one of its specificity, and it names the tool if another one of its specificity does. -/
structure Right (rules : List PermissionRule) (tool : String) (w : PermissionRule) : Prop where
  specific : ∀ r ∈ rules, r.specificity ≤ w.specificity
  longest : ∀ r ∈ rules, r.specificity = w.specificity → r.longestMatch tool ≤ w.longestMatch tool
  named : ∀ r ∈ rules, r.specificity = w.specificity → tool ∈ r.tools → tool ∈ w.tools

/-- The rule that `check` applies is a right one; it applies none just when none matches. -/
def AppliesRight : Prop :=
  match (s.check lower q).rule with
  | none => s.matching lower q = []
  | some w => w ∈ s.matching lower q ∧ Right (s.matching lower q) q.toolName w

/-- Another rule of the same specificity has a longer pattern that matches, or names the tool when
this one does not. -/
def Beaten (rules : List PermissionRule) (tool : String) (x : PermissionRule) : Prop :=
  ∃ r ∈ rules, r.specificity = x.specificity ∧
    (x.longestMatch tool < r.longestMatch tool ∨ tool ∈ r.tools ∧ tool ∉ x.tools)

/-- Another rule of the same specificity has a longer first pattern, or one that is as long and is
before this one. -/
def Outranked (rules : List PermissionRule) (x : PermissionRule) : Prop :=
  ∃ y ∈ rules, y.specificity = x.specificity ∧
    (x.firstLength < y.firstLength ∨
      x.firstLength = y.firstLength ∧ rules.idxOf y < rules.idxOf x)

theorem check_rule : (s.check lower q).rule = (s.matching lower q).argmax PermissionRule.rank := by
  unfold check
  split
  · next h => rw [h]
  · next best h =>
    rw [h]
    split <;> rfl

theorem check_action :
    (s.check lower q).action = ((s.check lower q).rule.map PermissionRule.action).getD .allow := by
  unfold check
  split
  · rfl
  · split <;> rfl

/-- What is not allowed is denied by a rule that matches. -/
theorem exists_deny_of_not_allowed (h : (s.check lower q).allowed = false) :
    ∃ r ∈ s.matching lower q, r.action = .deny ∧ (s.check lower q).rule = some r := by
  have hdeny : (s.check lower q).action = .deny := by
    simpa [PermissionResult.allowed] using h
  rw [check_action] at hdeny
  cases hrule : (s.check lower q).rule with
  | none => rw [hrule] at hdeny; cases hdeny
  | some r =>
    rw [hrule] at hdeny
    refine ⟨r, ?_, hdeny, rfl⟩
    rw [check_rule] at hrule
    exact List.argmax_mem hrule

theorem rank_le_iff {x y : PermissionRule} :
    x.rank ≤ y.rank ↔ x.specificity < y.specificity ∨
      x.specificity = y.specificity ∧ x.firstLength ≤ y.firstLength := by
  rw [PermissionRule.rank, PermissionRule.rank, Prod.Lex.toLex_le_toLex]

/-- A rule has the highest rank and is the first such, just when none is more specific and it is not
outranked. -/
theorem mem_argmax_rank_iff {rules : List PermissionRule} {x : PermissionRule} :
    x ∈ rules.argmax PermissionRule.rank ↔
      x ∈ rules ∧ (∀ r ∈ rules, r.specificity ≤ x.specificity) ∧ ¬ Outranked rules x := by
  rw [List.mem_argmax_iff]
  constructor
  · rintro ⟨hx, hmax, hfirst⟩
    refine ⟨hx, fun r hr => ?_, ?_⟩
    · rcases rank_le_iff.mp (hmax r hr) with h | ⟨h, -⟩
      · exact h.le
      · exact h.le
    · rintro ⟨y, hy, hspec, hlonger | ⟨hsame, hbefore⟩⟩
      · rcases rank_le_iff.mp (hmax y hy) with h | ⟨-, h⟩
        · omega
        · omega
      · have := hfirst y hy (rank_le_iff.mpr (.inr ⟨hspec.symm, hsame.le⟩))
        omega
  · rintro ⟨hx, htop, hnot⟩
    refine ⟨hx, fun r hr => ?_, fun r hr hle => ?_⟩
    · rcases (htop r hr).lt_or_eq with h | h
      · exact rank_le_iff.mpr (.inl h)
      · refine rank_le_iff.mpr (.inr ⟨h, ?_⟩)
        by_contra hlonger
        exact hnot ⟨r, hr, h, .inl (not_le.mp hlonger)⟩
    · rcases rank_le_iff.mp hle with h | ⟨hspec, hlen⟩
      · exact absurd (htop r hr) (not_le.mpr h)
      · by_contra hbefore
        refine hnot ⟨r, hr, hspec.symm, ?_⟩
        rcases hlen.lt_or_eq with hlt | heq
        · exact .inl hlt
        · exact .inr ⟨heq, not_le.mp hbefore⟩

/-- A rule of the highest specificity is the right one just when it is not beaten. -/
theorem right_iff {rules : List PermissionRule} {tool : String} {w : PermissionRule}
    (htop : ∀ r ∈ rules, r.specificity ≤ w.specificity) :
    Right rules tool w ↔ ¬ Beaten rules tool w := by
  constructor
  · rintro hright ⟨r, hr, hspec, hlt | ⟨hin, hout⟩⟩
    · exact absurd (hright.longest r hr hspec) (not_le.mpr hlt)
    · exact hout (hright.named r hr hspec hin)
  · intro hnot
    refine ⟨htop, fun r hr hspec => ?_, fun r hr hspec hin => ?_⟩
    · by_contra hlt
      exact hnot ⟨r, hr, hspec, .inl (not_le.mp hlt)⟩
    · by_contra hout
      exact hnot ⟨r, hr, hspec, .inr ⟨hin, hout⟩⟩

/-- **`check` applies the right rule** just when a rule of the highest specificity is outranked
wherever it is beaten: whenever another rule has a longer pattern that matches the tool, or names
the tool when this one does not, there is one whose first pattern is longer, matching or not, or as
long and in an earlier rule. -/
theorem appliesRight_iff : s.AppliesRight lower q ↔
    ∀ x ∈ s.matching lower q, (∀ r ∈ s.matching lower q, r.specificity ≤ x.specificity) →
      Beaten (s.matching lower q) q.toolName x → Outranked (s.matching lower q) x := by
  rw [AppliesRight, check_rule]
  constructor
  · intro h x hx htop hbeaten
    by_contra hnot
    have happlied : (s.matching lower q).argmax PermissionRule.rank = some x :=
      mem_argmax_rank_iff.mpr ⟨hx, htop, hnot⟩
    rw [happlied] at h
    exact (right_iff htop).mp h.2 hbeaten
  · intro h
    split
    · next hnone => exact List.argmax_eq_none.mp hnone
    · next w hw =>
      obtain ⟨hmem, htop, hnot⟩ := mem_argmax_rank_iff.mp hw
      exact ⟨hmem, (right_iff htop).mpr fun hbeaten => hnot (h w hmem htop hbeaten)⟩

/-- Rules of the same scope: one that allows a tool with a long name and, by a wildcard, all others,
and one that denies `read`. -/
def longNameFirst : PermissionEngine :=
  { rules := [{ scope := "global", server := "*", tools := ["long_tool_name", "*"] },
      { scope := "global", server := "*", tools := ["read"], action := .deny }] }

/-- The first pattern of the first rule is the longest one of the list and does not match, and so
the wildcard after it overrides the name. -/
theorem not_appliesRight_of_longNameFirst :
    ¬ longNameFirst.AppliesRight id { serverName := "files", toolName := "read" } := by
  have hrule : (longNameFirst.check id { serverName := "files", toolName := "read" }).rule =
      some { scope := "global", server := "*", tools := ["long_tool_name", "*"] } := by
    decide +kernel
  have hdeny : { scope := "global", server := "*", tools := ["read"], action := .deny } ∈
      longNameFirst.matching id { serverName := "files", toolName := "read" } := by
    decide +kernel
  intro h
  rw [AppliesRight, hrule] at h
  exact absurd (h.2.longest _ hdeny rfl) (by decide +kernel)

/-- Where the first pattern of every rule that matches is its longest one that does, no rule of the
same specificity has a longer one than the rule that is applied. -/
theorem longest_of_first {w : PermissionRule} (hw : (s.check lower q).rule = some w)
    (hfirst : ∀ r ∈ s.matching lower q, r.firstLength = r.longestMatch q.toolName) :
    ∀ r ∈ s.matching lower q, r.specificity = w.specificity →
      r.longestMatch q.toolName ≤ w.longestMatch q.toolName := by
  rw [check_rule] at hw
  obtain ⟨hmem, -, hnot⟩ := mem_argmax_rank_iff.mp hw
  intro r hr hspec
  rw [← hfirst r hr, ← hfirst w hmem]
  by_contra hlt
  exact hnot ⟨r, hr, hspec, .inl (not_le.mp hlt)⟩

/-- So it is for rules with one tool pattern each. -/
theorem firstLength_of_single {r : PermissionRule} {pattern : String} (htools : r.tools = [pattern])
    (hr : r ∈ s.matching lower q) : r.firstLength = r.longestMatch q.toolName := by
  have htool : matchesTool r.tools q.toolName = true :=
    (Bool.and_eq_true_iff.mp (List.mem_filter.mp hr).2).2
  have hmatch : matchesPattern q.toolName pattern = true := by
    simpa [matchesTool, htools] using htool
  simp [PermissionRule.firstLength, PermissionRule.longestMatch, htools, hmatch]

end PermissionEngine

end Security

end SlmMcpHub
