import SlmMcpHub.Library.Dict
import SlmMcpHub.Library.History
import Mathlib.Algebra.BigOperators.Group.List.Basic
import Mathlib.Algebra.Order.Field.Rat
import Mathlib.Tactic.Linarith

/-!
# Costs and budgets

`intelligence/cost.py`, with exact arithmetic.

## Main definitions

* `CostEngine`, with its operations
* `CostEngine.history` — what operations do to budgets, at the prices of the moment
* `Accounted` — what the history says about a budget
* `Cheapest` — `find_affordable_alternative` finds what its docstring says

## Main results

* `accounted_of_run`
* `cheapest_iff`
-/

namespace SlmMcpHub

namespace Intelligence

/-- `DEFAULT_COST_TABLE` -/
def defaultCostTable : List (String × ℚ) :=
  [("perplexity__perplexity_search", 1), ("perplexity__perplexity_ask", 1),
    ("perplexity__perplexity_research", 5), ("perplexity__perplexity_reason", 2),
    ("tavily__tavily_search", 1), ("tavily__tavily_crawl", 2), ("tavily__tavily_extract", 1),
    ("exa__web_search_exa", 1), ("exa__crawling_exa", 2), ("gemini__gemini-deep-research", 5),
    ("gemini__gemini-search", 1 / 2), ("gemini__gemini-query", 3 / 10),
    ("gemini__gemini-generate-image", 2), ("gemini__gemini-generate-video", 12),
    ("fal_ai__generate_image", 3), ("fal_ai__generate_video", 10), ("fal_ai__text_to_speech", 1),
    ("firecrawl__firecrawl_scrape", 1), ("firecrawl__firecrawl_crawl", 3)]

/-- `BudgetInfo` -/
structure BudgetInfo where
  scope : String
  budgetCents : ℚ
  spentCents : ℚ := 0
  periodStart : ℚ

/-- `CascadeOption` -/
structure CascadeOption where
  toolName : String
  costCents : ℚ
  deriving DecidableEq

/-- `CostEngine` -/
structure CostEngine where
  costTable : Dict String ℚ
  cascades : Dict String (List CascadeOption)
  budgets : Dict String BudgetInfo := .empty
  totalSpent : ℚ := 0
  callCount : ℕ := 0

namespace CostEngine

/-! ### The engine -/

/-- `CostEngine(cost_table, cascades)` -/
def new (costTable : Option (Dict String ℚ))
    (cascades : Option (Dict String (List CascadeOption))) :
    CostEngine where
  costTable := (Dict.empty.setAll defaultCostTable).setAll (costTable.elim [] Dict.entries)
  cascades := cascades.getD .empty

variable (s : CostEngine)

/-- `get_tool_cost` -/
def getToolCost (namespacedTool : String) : ℚ := (s.costTable.get? namespacedTool).getD 0

/-- `set_tool_cost` -/
def setToolCost (namespacedTool : String) (costCents : ℚ) : CostEngine :=
  { s with costTable := s.costTable.set namespacedTool costCents }

/-- `set_budget`, at a time. -/
def setBudget (scope : String) (budgetCents now : ℚ) : CostEngine :=
  { s with budgets := s.budgets.set scope { scope, budgetCents, periodStart := now } }

/-- `f"session:{session_id}"` -/
def sessionScope (sessionId : String) : String := "session:" ++ sessionId

/-- `budget and (budget.spent_cents + cost) > budget.budget_cents > 0` -/
def exceeds (scope : String) (cost : ℚ) : Bool :=
  match s.budgets.get? scope with
  | none => false
  | some b => b.budgetCents < b.spentCents + cost && 0 < b.budgetCents

/-- `can_afford` -/
def canAfford (namespacedTool sessionId : String) : Bool :=
  let cost := s.getToolCost namespacedTool
  if cost ≤ 0 then true
  else if s.exceeds "global" cost then false
  else if sessionId ≠ "" then !s.exceeds (sessionScope sessionId) cost
  else true

/-- `budget.spent_cents += cost` -/
def addCost (scope : String) (cost : ℚ) : CostEngine :=
  { s with
    budgets := s.budgets.modify scope fun b => { b with spentCents := b.spentCents + cost } }

/-- `record_cost` -/
def recordCost (namespacedTool sessionId : String) : ℚ × CostEngine :=
  let cost := s.getToolCost namespacedTool
  let s := { s with totalSpent := s.totalSpent + cost, callCount := s.callCount + 1 }
  let s := s.addCost "global" cost
  (cost, if sessionId ≠ "" then s.addCost (sessionScope sessionId) cost else s)

/-- `get_cascade` -/
def getCascade (namespacedTool : String) : Option (List CascadeOption) :=
  s.cascades.get? namespacedTool

/-- `set_cascade` -/
def setCascade (namespacedTool : String) (options : List CascadeOption) : CostEngine :=
  { s with cascades := s.cascades.set namespacedTool options }

/-- `find_affordable_alternative` -/
def findAffordableAlternative (namespacedTool sessionId : String) : Option String :=
  match s.getCascade namespacedTool with
  | none => none
  | some cascade =>
    (cascade.find? fun option => s.canAfford option.toolName sessionId).map CascadeOption.toolName

/-- An operation; a call is recorded after `can_afford` has answered that it may be made. -/
inductive Op where
  | setToolCost (namespacedTool : String) (costCents : ℚ)
  | setBudget (scope : String) (budgetCents now : ℚ)
  | recordCost (namespacedTool sessionId : String)

/-- One operation, if it may be done. -/
def step (s : CostEngine) : Op → Option CostEngine
  | .setToolCost namespacedTool costCents => some (s.setToolCost namespacedTool costCents)
  | .setBudget scope budgetCents now => some (s.setBudget scope budgetCents now)
  | .recordCost namespacedTool sessionId =>
    if s.canAfford namespacedTool sessionId then some (s.recordCost namespacedTool sessionId).2
    else none

/-- A sequence of operations. -/
def run (s : CostEngine) (ops : List Op) : Option CostEngine := ops.foldlM step s

end CostEngine

/-! ### What the history says about budgets -/

/-- Something that is done to budgets. -/
inductive CostEvent where
  | budgetSet (scope : String) (budgetCents : ℚ)
  | recorded (sessionId : String) (cost : ℚ)
  deriving DecidableEq

namespace CostEngine

/-- The prices after an operation. -/
def priced (prices : Dict String ℚ) : Op → Dict String ℚ
  | .setToolCost namespacedTool costCents => prices.set namespacedTool costCents
  | .setBudget _ _ _ | .recordCost _ _ => prices

/-- What an operation does to budgets, at some prices. -/
def charge (prices : Dict String ℚ) : Op → List CostEvent
  | .setToolCost _ _ => []
  | .setBudget scope budgetCents _ => [.budgetSet scope budgetCents]
  | .recordCost namespacedTool sessionId =>
    [.recorded sessionId ((prices.get? namespacedTool).getD 0)]

/-- What a sequence of operations does to budgets, with some prices in the beginning. -/
def history (prices : Dict String ℚ) (ops : List Op) : List CostEvent :=
  History.trace priced charge prices ops

end CostEngine

/-- A call of the session counts for the budget. -/
def InScope (scope sessionId : String) : Prop :=
  scope = "global" ∨ sessionId ≠ "" ∧ scope = CostEngine.sessionScope sessionId

instance (scope sessionId : String) : Decidable (InScope scope sessionId) :=
  inferInstanceAs (Decidable (_ ∨ _))

/-- What something counts for a budget. -/
def CostEvent.costIn (scope : String) : CostEvent → ℚ
  | .budgetSet _ _ => 0
  | .recorded sessionId cost => if InScope scope sessionId then cost else 0

/-- **A budget is kept**: there is the one that was set last, what is spent is the sum of the costs
recorded in its scope since then, and it is within the budget if there is one. -/
structure Accounted (log : List CostEvent) (scope : String) (budget : Option BudgetInfo) :
    Prop where
  set : ∀ b ∈ budget, ∃ cents, .budgetSet scope cents ∈ log
  spent : ∀ before cents after, log = before ++ .budgetSet scope cents :: after →
    (∀ cents', .budgetSet scope cents' ∉ after) → ∃ b, budget = some b ∧ b.budgetCents = cents ∧
      b.spentCents = (after.map (CostEvent.costIn scope)).sum
  within : ∀ b ∈ budget, 0 < b.budgetCents → b.spentCents ≤ b.budgetCents

section Events

variable {log : List CostEvent} {scope : String} {budget : Option BudgetInfo}

/-- A budget that has just been set. -/
theorem accounted_budgetSet (scope' : String) (cents now : ℚ) :
    Accounted (log ++ [.budgetSet scope cents]) scope
      (some { scope := scope', budgetCents := cents, periodStart := now }) where
  set _ _ := ⟨cents, List.mem_append_right _ (List.mem_singleton_self _)⟩
  spent before cents' after hlog hafter := by
    obtain ⟨-, hset, rfl⟩ | ⟨init, rfl, -⟩ := History.concat_eq_append_cons.mp hlog
    · exact ⟨_, rfl, (CostEvent.budgetSet.inj hset).2, rfl⟩
    · exact absurd (List.mem_append_right _ (List.mem_singleton_self _)) (hafter cents)
  within b hb hpos := by
    obtain rfl := Option.some.inj hb
    exact hpos.le

/-- Something else has been done, and was counted. -/
theorem Accounted.concat (h : Accounted log scope budget) (event : CostEvent)
    (hset : ∀ cents, event ≠ .budgetSet scope cents)
    (hwithin : ∀ b ∈ budget, 0 < b.budgetCents →
      b.spentCents + event.costIn scope ≤ b.budgetCents) :
    Accounted (log ++ [event]) scope
      (budget.map fun b => { b with spentCents := b.spentCents + event.costIn scope }) where
  set b hb := by
    obtain ⟨b', hb', -⟩ := Option.map_eq_some_iff.mp hb
    obtain ⟨cents, hmem⟩ := h.set b' hb'
    exact ⟨cents, List.mem_append_left _ hmem⟩
  spent before cents after hlog hafter := by
    obtain ⟨-, heq, -⟩ | ⟨init, rfl, hinit⟩ := History.concat_eq_append_cons.mp hlog
    · exact absurd heq (hset cents)
    · obtain ⟨b, rfl, hcents, hspent⟩ := h.spent before cents init hinit fun cents' hmem =>
        hafter cents' (List.mem_append_left _ hmem)
      refine ⟨_, rfl, hcents, ?_⟩
      rw [List.map_append, List.sum_append, List.map_singleton, List.sum_singleton, ← hspent]
  within b hb := by
    obtain ⟨b', hb', rfl⟩ := Option.map_eq_some_iff.mp hb
    exact hwithin b' hb'

end Events

namespace CostEngine

variable {s s' : CostEngine} {tool sessionId scope : String} {b : BudgetInfo}

theorem not_exceeds_iff {cost : ℚ} : s.exceeds scope cost = false ↔
    ∀ b, s.budgets.get? scope = some b → 0 < b.budgetCents →
      b.spentCents + cost ≤ b.budgetCents := by
  rw [exceeds]
  cases s.budgets.get? scope with
  | none => simp
  | some b =>
    simp only [Bool.and_eq_false_iff, decide_eq_false_iff_not, not_lt, Option.some.injEq,
      forall_eq']
    constructor
    · rintro (h | h) hpos
      · exact h
      · exact absurd h (not_le.mpr hpos)
    · intro h
      exact (lt_or_ge 0 b.budgetCents).imp h id

/-- **A call may be made** if it costs nothing, or every budget it counts for has room for it. -/
theorem canAfford_iff : s.canAfford tool sessionId = true ↔ s.getToolCost tool ≤ 0 ∨
    ∀ scope, InScope scope sessionId → ∀ b, s.budgets.get? scope = some b → 0 < b.budgetCents →
      b.spentCents + s.getToolCost tool ≤ b.budgetCents := by
  rw [canAfford]
  by_cases hfree : s.getToolCost tool ≤ 0
  · simp [hfree]
  · have hscopes :
        (∀ scope, InScope scope sessionId → s.exceeds scope (s.getToolCost tool) = false) ↔
        s.exceeds "global" (s.getToolCost tool) = false ∧ (sessionId ≠ "" →
          s.exceeds (sessionScope sessionId) (s.getToolCost tool) = false) := by
      constructor
      · exact fun h => ⟨h _ (.inl rfl), fun hne => h _ (.inr ⟨hne, rfl⟩)⟩
      · rintro ⟨hglobal, hsession⟩ scope (rfl | ⟨hne, rfl⟩)
        · exact hglobal
        · exact hsession hne
    simp only [not_exceeds_iff] at hscopes
    rw [or_iff_right hfree, hscopes, ← not_exceeds_iff, ← not_exceeds_iff]
    simp only [hfree, if_false]
    cases hglobal : s.exceeds "global" (s.getToolCost tool) <;> by_cases hne : sessionId = "" <;>
      simp [hne]

theorem sessionScope_ne_global (sessionId : String) : sessionScope sessionId ≠ "global" := by
  intro h
  have hlist := congrArg String.toList h
  rw [sessionScope, String.toList_append] at hlist
  have hhead : some 's' = "global".toList.head? := congrArg List.head? hlist
  exact absurd hhead (by decide)

/-- **What `record_cost` does to a budget.** -/
theorem get?_recordCost (s : CostEngine) (tool sessionId scope : String) :
    (s.recordCost tool sessionId).2.budgets.get? scope = (s.budgets.get? scope).map fun b =>
      { b with
        spentCents := b.spentCents +
          (CostEvent.recorded sessionId (s.getToolCost tool)).costIn scope } := by
  have hbudgets : (s.recordCost tool sessionId).2.budgets =
      if sessionId ≠ "" then ((s.addCost "global" (s.getToolCost tool)).addCost
        (sessionScope sessionId) (s.getToolCost tool)).budgets
      else (s.addCost "global" (s.getToolCost tool)).budgets := by
    rw [recordCost]
    split <;> rfl
  have hcost : (CostEvent.recorded sessionId (s.getToolCost tool)).costIn scope =
      if InScope scope sessionId then s.getToolCost tool else 0 := rfl
  rw [hbudgets, hcost]
  by_cases hglobal : scope = "global"
  · have hscope : InScope scope sessionId := .inl hglobal
    have hne : sessionScope sessionId ≠ scope := hglobal ▸ sessionScope_ne_global sessionId
    rw [if_pos hscope]
    split
    · rw [addCost, addCost, Dict.get?_modify, if_neg hne, Dict.get?_modify, if_pos hglobal.symm]
    · rw [addCost, Dict.get?_modify, if_pos hglobal.symm]
  · have hother : ∀ cost, (s.addCost "global" cost).budgets.get? scope = s.budgets.get? scope :=
      fun cost => by rw [addCost, Dict.get?_modify, if_neg (Ne.symm hglobal)]
    by_cases hscope : InScope scope sessionId
    · obtain ⟨hne, rfl⟩ := hscope.resolve_left hglobal
      rw [if_pos hscope, if_pos hne, addCost, Dict.get?_modify, if_pos rfl, hother]
    · rw [if_neg hscope]
      simp only [add_zero, Option.map_id']
      split
      · rename_i hne
        have hkey : sessionScope sessionId ≠ scope := fun h => hscope (.inr ⟨hne, h.symm⟩)
        rw [addCost, Dict.get?_modify, if_neg hkey, hother]
      · exact hother _

/-- The budgets are accounted for. -/
def Inv (log : List CostEvent) (s : CostEngine) : Prop :=
  ∀ scope, Accounted log scope (s.budgets.get? scope)

variable {log : List CostEvent}

theorem inv_new (costTable : Option (Dict String ℚ))
    (cascades : Option (Dict String (List CascadeOption))) : Inv [] (new costTable cascades) := by
  intro scope
  refine ⟨?_, fun before cents after hlog => ?_, ?_⟩
  · rintro b ⟨⟩
  · cases before <;> cases hlog
  · rintro b ⟨⟩

theorem Inv.setBudget (h : Inv log s) (scope : String) (budgetCents now : ℚ) :
    Inv (log ++ [.budgetSet scope budgetCents]) (s.setBudget scope budgetCents now) := by
  intro i
  rw [CostEngine.setBudget, Dict.get?_set]
  split
  · next hi =>
    subst hi
    exact accounted_budgetSet scope budgetCents now
  · next hi =>
    have hold := (h i).concat (.budgetSet scope budgetCents)
      (fun cents hevent => hi (CostEvent.budgetSet.inj hevent).1) (by
        simpa [CostEvent.costIn] using (h i).within)
    simpa [CostEvent.costIn] using hold

/-- **A call that may be made** stays within the budgets it counts for. -/
theorem Inv.recordCost (h : Inv log s) (hafford : s.canAfford tool sessionId = true) :
    Inv (log ++ [.recorded sessionId (s.getToolCost tool)]) (s.recordCost tool sessionId).2 := by
  intro scope
  rw [get?_recordCost]
  refine (h scope).concat _ nofun fun b hb hpos => ?_
  have hwithin := (h scope).within b hb hpos
  rw [CostEvent.costIn]
  split
  · next hscope =>
    rcases canAfford_iff.mp hafford with hfree | hroom
    · linarith
    · exact hroom scope hscope b hb hpos
  · linarith

/-- What one operation does, at the prices of the engine. -/
theorem Inv.step (h : Inv log s) {op : Op} (hstep : s.step op = some s') :
    Inv (log ++ charge s.costTable op) s' ∧ s'.costTable = priced s.costTable op := by
  cases op with
  | setToolCost tool cost =>
    obtain rfl := Option.some.inj hstep
    rw [charge, List.append_nil]
    exact ⟨h, rfl⟩
  | setBudget scope budgetCents now =>
    obtain rfl := Option.some.inj hstep
    exact ⟨h.setBudget scope budgetCents now, rfl⟩
  | recordCost tool sessionId =>
    rw [CostEngine.step] at hstep
    split at hstep
    · next hafford =>
      obtain rfl := Option.some.inj hstep
      refine ⟨h.recordCost hafford, ?_⟩
      rw [CostEngine.recordCost]
      split <;> rfl
    · cases hstep

theorem Inv.run (h : Inv log s) {ops : List Op} (hrun : s.run ops = some s') :
    Inv (log ++ history s.costTable ops) s' := by
  induction ops generalizing log s with
  | nil =>
    obtain rfl := Option.some.inj hrun
    rwa [history, History.trace, List.append_nil]
  | cons op ops ih =>
    rw [CostEngine.run, List.foldlM_cons] at hrun
    obtain ⟨s₁, hstep, hrest⟩ := Option.bind_eq_some_iff.mp hrun
    obtain ⟨h₁, hprices⟩ := h.step hstep
    rw [history, History.trace, ← List.append_assoc, ← hprices]
    exact ih h₁ hrest

/-- **Every budget is kept**, in every run that records calls only when they may be made. -/
theorem accounted_of_run {costTable : Option (Dict String ℚ)}
    {cascades : Option (Dict String (List CascadeOption))} {ops : List Op}
    (hrun : (new costTable cascades).run ops = some s) (scope : String) :
    Accounted (history (new costTable cascades).costTable ops) scope (s.budgets.get? scope) :=
  (inv_new costTable cascades).run hrun scope

/-- Two budgets, a call that counts for both, a new price, and a call that counts for one. -/
def exampleOps : List Op :=
  [.setBudget "global" 4 0, .setBudget "session:a" (3 / 2) 0,
    .recordCost "exa__web_search_exa" "a", .setToolCost "exa__crawling_exa" (5 / 2),
    .recordCost "exa__crawling_exa" "b"]

theorem accounted_of_run_exa : ∃ s, (new none none).run exampleOps = some s ∧
    history (new none none).costTable exampleOps = [.budgetSet "global" 4,
      .budgetSet "session:a" (3 / 2), .recorded "a" 1, .recorded "b" (5 / 2)] ∧
    (s.budgets.get? "global").map BudgetInfo.spentCents = some (7 / 2) ∧
    (s.budgets.get? "session:a").map BudgetInfo.spentCents = some 1 ∧
    s.canAfford "exa__web_search_exa" "" = false ∧
    ∀ scope, Accounted (history (new none none).costTable exampleOps) scope
      (s.budgets.get? scope) := by
  have hruns : ((new none none).run exampleOps).any (fun s =>
      (s.budgets.get? "global").map BudgetInfo.spentCents = some (7 / 2) ∧
      (s.budgets.get? "session:a").map BudgetInfo.spentCents = some 1 ∧
      s.canAfford "exa__web_search_exa" "" = false) = true := by
    decide +kernel
  obtain ⟨s, hs, hanswers⟩ := (Option.any_eq_true _ _).mp hruns
  obtain ⟨hglobal, hsession, hafford⟩ := of_decide_eq_true hanswers
  exact ⟨s, hs, by decide +kernel, hglobal, hsession, hafford, accounted_of_run hs⟩

/-! ### Alternatives -/

/-- The options of a tool. -/
def options (s : CostEngine) (tool : String) : List CascadeOption := (s.getCascade tool).getD []

/-- An option that may be called. -/
def Affordable (s : CostEngine) (sessionId : String) (o : CascadeOption) : Prop :=
  s.canAfford o.toolName sessionId = true

instance (s : CostEngine) (sessionId : String) (o : CascadeOption) :
    Decidable (s.Affordable sessionId o) :=
  inferInstanceAs (Decidable (_ = true))

/-- What an option costs. -/
def optionCost (s : CostEngine) (o : CascadeOption) : ℚ := s.getToolCost o.toolName

/-- **The cheapest alternative**: there is none just when no option is affordable, and what there is
is an affordable option that costs no more than any other one. -/
structure Cheapest (s : CostEngine) (tool sessionId : String) : Prop where
  none_iff : s.findAffordableAlternative tool sessionId = none ↔
    ∀ o ∈ s.options tool, ¬ s.Affordable sessionId o
  minimal : ∀ t, s.findAffordableAlternative tool sessionId = some t →
    ∃ o ∈ s.options tool, o.toolName = t ∧ s.Affordable sessionId o ∧
      ∀ o' ∈ s.options tool, s.Affordable sessionId o' → s.getToolCost t ≤ s.optionCost o'

/-- No affordable option is cheaper than all affordable ones before it, if there are such. -/
def Ascending (s : CostEngine) (tool sessionId : String) : Prop :=
  ∀ before o after, s.options tool = before ++ o :: after → s.Affordable sessionId o →
    (∃ o' ∈ before, s.Affordable sessionId o') →
      ∃ o' ∈ before, s.Affordable sessionId o' ∧ s.optionCost o' ≤ s.optionCost o

/-- **What is found**: the first affordable option. -/
theorem findAffordableAlternative_eq (s : CostEngine) (tool sessionId : String) :
    s.findAffordableAlternative tool sessionId = ((s.options tool).find? fun o =>
      s.canAfford o.toolName sessionId).map CascadeOption.toolName := by
  rw [findAffordableAlternative, options]
  cases s.getCascade tool <;> rfl

/-- Of the affordable options in a list, the first one is before any other. -/
theorem mem_or_eq_of_first {before after left right : List CascadeOption} {first o : CascadeOption}
    (hsplit : before ++ first :: after = left ++ o :: right)
    (hbefore : ∀ o ∈ before, ¬ s.Affordable sessionId o) (hafford : s.Affordable sessionId o) :
    first ∈ left ∨ first = o ∧ left = before := by
  rcases List.append_eq_append_iff.mp hsplit with ⟨between, hleft, hrest⟩ | ⟨between, hleft, hrest⟩
  · cases between with
    | nil => exact .inr ⟨(List.cons.inj hrest).1, by rw [hleft, List.append_nil]⟩
    | cons x between =>
      obtain rfl := (List.cons.inj hrest).1
      exact .inl (hleft ▸ by simp)
  · cases between with
    | nil => exact .inr ⟨(List.cons.inj hrest).1.symm, by rw [hleft, List.append_nil]⟩
    | cons x between =>
      obtain rfl := (List.cons.inj hrest).1
      exact absurd hafford (hbefore _ (hleft ▸ by simp))

/-- In such a list the first affordable option is a cheapest one. -/
theorem Ascending.first_le (h : s.Ascending tool sessionId) {before after : List CascadeOption}
    {first : CascadeOption} (hoptions : s.options tool = before ++ first :: after)
    (hfirst : s.Affordable sessionId first) (hbefore : ∀ o ∈ before, ¬ s.Affordable sessionId o)
    {o : CascadeOption} (ho : o ∈ s.options tool) (hafford : s.Affordable sessionId o) :
    s.optionCost first ≤ s.optionCost o := by
  -- the induction is on how far down the list the option is
  obtain ⟨left, right, hsplit⟩ := List.append_of_mem ho
  induction hlength : left.length using Nat.strong_induction_on generalizing o left right with
  | _ n ih =>
    rcases mem_or_eq_of_first (hoptions ▸ hsplit) hbefore hafford with hmem | ⟨rfl, -⟩
    · obtain ⟨o', ho', hafford', hle⟩ := h left o right hsplit hafford ⟨first, hmem, hfirst⟩
      obtain ⟨left', right', rfl⟩ := List.append_of_mem ho'
      refine (ih left'.length ?_ ?_ hafford' left' (right' ++ o :: right) ?_ rfl).trans hle
      · rw [← hlength, List.length_append, List.length_cons]
        omega
      · rw [hsplit]
        simp
      · rw [hsplit, List.append_assoc, List.cons_append]
    · exact le_refl _

/-- **`find_affordable_alternative` finds the cheapest one** just when no affordable option is
cheaper than all affordable ones before it. -/
theorem cheapest_iff (s : CostEngine) (tool sessionId : String) :
    s.Cheapest tool sessionId ↔ s.Ascending tool sessionId := by
  have hnone : s.findAffordableAlternative tool sessionId = none ↔
      ∀ o ∈ s.options tool, ¬ s.Affordable sessionId o := by
    rw [findAffordableAlternative_eq, Option.map_eq_none_iff, List.find?_eq_none]
    rfl
  cases hfind : (s.options tool).find? fun o => s.canAfford o.toolName sessionId with
  | none =>
    have hnobody := List.find?_eq_none.mp hfind
    refine iff_of_true ⟨hnone, fun t ht => ?_⟩ fun before o after hoptions hafford _ => ?_
    · rw [findAffordableAlternative_eq, hfind] at ht
      cases ht
    · exact absurd hafford (hnobody o (hoptions ▸ by simp))
  | some first =>
    obtain ⟨hfirst, before, after, hoptions, hbefore⟩ := List.find?_eq_some_iff_append.mp hfind
    have hbefore : ∀ o ∈ before, ¬ s.Affordable sessionId o := fun o ho hafford => by
      have hnot := hbefore o ho
      rw [hafford] at hnot
      cases hnot
    have hfound : s.findAffordableAlternative tool sessionId = some first.toolName := by
      rw [findAffordableAlternative_eq, hfind, Option.map_some]
    have hmem : first ∈ s.options tool := hoptions ▸ by simp
    constructor
    · rintro ⟨-, hminimal⟩ left o right hsplit hafford hsome
      obtain ⟨-, -, -, -, hle⟩ := hminimal _ hfound
      obtain ⟨o', ho', hafford'⟩ := hsome
      refine ⟨first, ?_, hfirst, hle o (hsplit ▸ by simp) hafford⟩
      obtain hmem | ⟨-, rfl⟩ := mem_or_eq_of_first (hoptions ▸ hsplit) hbefore hafford
      · exact hmem
      · exact absurd hafford' (hbefore o' ho')
    · intro hascending
      refine ⟨hnone, fun t ht => ?_⟩
      obtain rfl := Option.some.inj (hfound.symm.trans ht)
      exact ⟨first, hmem, rfl, hfirst, fun o ho hafford =>
        hascending.first_le hoptions hfirst hbefore ho hafford⟩

/-- A dear option in front of a cheap one, without a budget. -/
theorem not_cheapest_of_dear_first : ¬ Cheapest ((new none none).setCascade "search"
    [⟨"perplexity__perplexity_research", 5⟩, ⟨"gemini__gemini-query", 3 / 10⟩]) "search" "" := by
  rintro ⟨-, hminimal⟩
  obtain ⟨-, -, -, -, hle⟩ := hminimal "perplexity__perplexity_research" (by decide +kernel)
  exact absurd (hle ⟨"gemini__gemini-query", 3 / 10⟩ (by decide +kernel) (by decide +kernel))
    (by decide +kernel)

end CostEngine

end Intelligence

end SlmMcpHub
