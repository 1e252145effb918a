import SlmMcpHub.Library.Walk
import SlmMcpHub.Resilience.Classifier

/-!
# The chain of causes

`resilience/classifier.py`: `_cause_chain` follows what an exception was raised from. Exceptions
are objects, and the attributes that chain them can be set: a chain may lead back into itself, so
the exceptions of a process are a graph.

What a handler is given is the part of the graph that can be reached from one exception. Unrolled
to so many links it is a `Raised`, of the same class.

## Main definitions

* `ExceptionHeap` — exceptions by identity, with the attributes that chain them
* `ExceptionHeap.causeChain`, `ExceptionHeap.classifyFailure` — as in the source
* `ExceptionHeap.unroll` — an exception as a handler is given it

## Main results

* `ExceptionHeap.classifyFailure_unroll` — unrolling changes no class
* `ExceptionHeap.classifyFailure_spec` — what the chain is, and how it decides
-/

namespace SlmMcpHub

namespace Resilience

/-- Exceptions, known by their identity, with the type of each, the classes it is an instance of,
and its `__cause__`, `__context__` and `__suppress_context__`. -/
structure ExceptionHeap (E : Type) where
  typeName : E → String
  classes : E → List ExcClass
  cause : E → Option E
  context : E → Option E
  suppressContext : E → Bool

namespace ExceptionHeap

variable {E : Type} (g : ExceptionHeap E)

/-- `isinstance` of one of some classes. -/
def isinstance (exc : E) (cs : List ExcClass) : Bool := (g.classes exc).any (· ∈ cs)

/-- The exception the chain goes on with. -/
def next (exc : E) : Option E :=
  match g.cause exc with
  | some cause => some cause
  | none => if g.suppressContext exc then none else g.context exc

/-- An exception with the causes that are at most so many links away. -/
def unroll : ℕ → E → Raised
  | 0, exc => .mk (g.typeName exc) (g.classes exc) none none (g.suppressContext exc)
  | links + 1, exc =>
    .mk (g.typeName exc) (g.classes exc) ((g.cause exc).map (unroll links))
      ((g.context exc).map (unroll links)) (g.suppressContext exc)

section Chain

variable [DecidableEq E]

/-- The loop of `_cause_chain`, for so many rounds. -/
def causeChainLoop (rounds : ℕ) (exc : E) : Option (List E) :=
  (WhileLoop.run (Walk.step g.next maxDepth) rounds (some exc, [])).map Prod.snd

/-- `_cause_chain` -/
def causeChain (exc : E) : List E := (g.causeChainLoop (maxDepth + 1) exc).getD []

/-- `classify_failure` -/
def classifyFailure (exc : E) : FailureClass :=
  let chain := g.causeChain exc
  if chain.any fun e => g.isinstance e [.oAuthAuthRequiredError] then .auth
  else if chain.any fun e => g.isinstance e terminalExcTypes then .terminal
  else if chain.any fun e => g.isinstance e transientExcTypes then .transient
  else .transient

end Chain

/-! ### The chain as a walk -/

section Chain

variable [DecidableEq E]

theorem isWalk_causeChain (exc : E) :
    Walk.IsWalk g.next maxDepth exc (g.causeChain exc) ∧
      ∀ rounds, maxDepth < rounds → g.causeChainLoop rounds exc = some (g.causeChain exc) := by
  obtain ⟨l, hwalk, hends⟩ := Walk.exists_run_eq g.next (by decide : 0 < maxDepth) exc
  have hchain : g.causeChain exc = l := by
    rw [causeChain, causeChainLoop, hends _ (Nat.lt_succ_self _), Option.getD_some]
  rw [hchain]
  exact ⟨hwalk, hends⟩

theorem mem_causeChain_iff {exc e : E} :
    e ∈ g.causeChain exc ↔ ∃ n < maxDepth, Walk.nth g.next exc n = some e :=
  (g.isWalk_causeChain exc).1.mem_iff

end Chain

/-! ### What a handler is given -/

@[simp] theorem isinstance_unroll (links : ℕ) (exc : E) (cs : List ExcClass) :
    (g.unroll links exc).isinstance cs = g.isinstance exc cs := by
  cases links <;> rfl

theorem next_unroll (links : ℕ) (exc : E) :
    (g.unroll (links + 1) exc).next = (g.next exc).map (g.unroll links) := by
  rw [unroll, next]
  cases g.cause exc with
  | some cause => rfl
  | none =>
    cases g.context exc <;> cases g.suppressContext exc <;> rfl

/-- The chain of what is unrolled that far has the exceptions of the graph in it. -/
theorem any_causeChain_unroll (cs : List ExcClass) {depth links : ℕ} (hle : depth ≤ links + 1)
    (exc : E) :
    ((Resilience.causeChain depth (g.unroll links exc)).any fun e => e.isinstance cs) = true ↔
      ∃ n < depth, ∃ e, Walk.nth g.next exc n = some e ∧ g.isinstance e cs = true := by
  induction depth generalizing links exc with
  | zero => simp [Resilience.causeChain]
  | succ depth ih =>
    rw [Walk.exists_nth_succ_iff, Resilience.causeChain, List.any_cons, Bool.or_eq_true,
      isinstance_unroll]
    refine or_congr_right ?_
    cases depth with
    | zero =>
      refine iff_of_false ?_ (by simp)
      cases (g.unroll links exc).next <;> simp [Resilience.causeChain]
    | succ depth =>
      obtain ⟨links, rfl⟩ : ∃ l, links = l + 1 := ⟨links - 1, by omega⟩
      rw [next_unroll]
      cases g.next exc with
      | none => simp
      | some cause =>
        rw [Option.map_some, Option.elim_some, ih (by omega)]
        simp

section Class

variable [DecidableEq E]

/-- The chain of the graph, as a handler finds it. -/
theorem any_unroll {links : ℕ} (hle : maxDepth ≤ links + 1) (exc : E) (cs : List ExcClass) :
    ((Resilience.causeChain maxDepth (g.unroll links exc)).any fun e => e.isinstance cs) =
      (g.causeChain exc).any fun e => g.isinstance e cs := by
  rw [Bool.eq_iff_iff, any_causeChain_unroll g cs hle, List.any_eq_true]
  simp only [mem_causeChain_iff]
  constructor
  · rintro ⟨n, hn, e, he, his⟩
    exact ⟨e, ⟨n, hn, he⟩, his⟩
  · rintro ⟨e, ⟨n, hn, he⟩, his⟩
    exact ⟨n, hn, e, he, his⟩

/-- **Unrolling changes no class.** -/
theorem classifyFailure_unroll {links : ℕ} (hle : maxDepth ≤ links + 1) (exc : E) :
    Resilience.classifyFailure (g.unroll links exc) = g.classifyFailure exc := by
  rw [Resilience.classifyFailure, classifyFailure]
  simp only [g.any_unroll hle]

/-! ### What decides the class -/

theorem classifyFailure_eq_auth_iff {exc : E} : g.classifyFailure exc = .auth ↔
    ∃ e ∈ g.causeChain exc, g.isinstance e [.oAuthAuthRequiredError] = true := by
  rw [← g.classifyFailure_unroll (Nat.le_succ maxDepth), Resilience.classifyFailure_eq_auth_iff,
    ← List.any_eq_true, g.any_unroll (Nat.le_succ maxDepth), List.any_eq_true]

theorem classifyFailure_eq_terminal_iff {exc : E} : g.classifyFailure exc = .terminal ↔
    (¬ ∃ e ∈ g.causeChain exc, g.isinstance e [.oAuthAuthRequiredError] = true) ∧
      ∃ e ∈ g.causeChain exc, g.isinstance e terminalExcTypes = true := by
  rw [← classifyFailure_eq_auth_iff, ← g.classifyFailure_unroll (Nat.le_succ maxDepth),
    Resilience.classifyFailure_eq_terminal_iff, ← List.any_eq_true,
    g.any_unroll (Nat.le_succ maxDepth), List.any_eq_true]

theorem classifyFailure_eq_transient_iff {exc : E} : g.classifyFailure exc = .transient ↔
    (¬ ∃ e ∈ g.causeChain exc, g.isinstance e [.oAuthAuthRequiredError] = true) ∧
      ¬ ∃ e ∈ g.causeChain exc, g.isinstance e terminalExcTypes = true := by
  have hterminal : g.classifyFailure exc = .terminal ↔ _ := g.classifyFailure_eq_terminal_iff
  rw [← classifyFailure_eq_auth_iff] at hterminal ⊢
  cases hclass : g.classifyFailure exc with
  | auth => simp
  | terminal => exact iff_of_false nofun fun h => h.2 (hterminal.mp hclass).2
  | transient =>
    refine iff_of_true rfl ⟨nofun, fun h => ?_⟩
    rw [hclass] at hterminal
    cases hterminal.mpr ⟨nofun, h⟩

/-- What a chain starts with is in the chain of what wraps its root, explicitly and so many
times. -/
theorem mem_causeChain_of_wraps {w exc e : E} {k : ℕ} (hwraps : Walk.nth g.cause w k = some exc)
    (he : e ∈ (g.causeChain exc).take (maxDepth - k)) : e ∈ g.causeChain w := by
  rw [(g.isWalk_causeChain exc).1.mem_take_iff (Nat.sub_le _ _)] at he
  obtain ⟨n, hn, he⟩ := he
  have hnext : Walk.nth g.next w k = some exc :=
    Walk.nth_mono (fun e e' hcause => by rw [next, hcause]) hwraps
  exact g.mem_causeChain_iff.mpr ⟨k + n, by omega, (Walk.nth_add hnext n).trans he⟩

/-- **How a failure is classified**, whatever graph the exceptions make. The loop ends. The chain is
a walk from the exception to what it was raised from, and on. What is in it decides the class: an
error of authorization first, then one that needs an administrator. And what is wrapped, so many
times, decides it still, if it is not too deep by then. -/
theorem classifyFailure_spec (g : ExceptionHeap E) (exc : E) :
    (∀ rounds, maxDepth < rounds → g.causeChainLoop rounds exc = some (g.causeChain exc)) ∧
      Walk.IsWalk g.next maxDepth exc (g.causeChain exc) ∧
      (g.classifyFailure exc = .auth ↔
        ∃ e ∈ g.causeChain exc, g.isinstance e [.oAuthAuthRequiredError] = true) ∧
      (g.classifyFailure exc = .terminal ↔
        (¬ ∃ e ∈ g.causeChain exc, g.isinstance e [.oAuthAuthRequiredError] = true) ∧
          ∃ e ∈ g.causeChain exc, g.isinstance e terminalExcTypes = true) ∧
      (g.classifyFailure exc = .transient ↔
        (¬ ∃ e ∈ g.causeChain exc, g.isinstance e [.oAuthAuthRequiredError] = true) ∧
          ¬ ∃ e ∈ g.causeChain exc, g.isinstance e terminalExcTypes = true) ∧
      ∀ w k, Walk.nth g.cause w k = some exc →
        ((∃ e ∈ (g.causeChain exc).take (maxDepth - k),
            g.isinstance e [.oAuthAuthRequiredError] = true) → g.classifyFailure w = .auth) ∧
        ((∃ e ∈ (g.causeChain exc).take (maxDepth - k),
            g.isinstance e terminalExcTypes = true) → g.classifyFailure w ≠ .transient) := by
  obtain ⟨hwalk, hends⟩ := g.isWalk_causeChain exc
  refine ⟨hends, hwalk, g.classifyFailure_eq_auth_iff, g.classifyFailure_eq_terminal_iff,
    g.classifyFailure_eq_transient_iff, fun w k hwraps => ⟨?_, ?_⟩⟩
  · rintro ⟨e, he, hauth⟩
    exact g.classifyFailure_eq_auth_iff.mpr ⟨e, g.mem_causeChain_of_wraps hwraps he, hauth⟩
  · rintro ⟨e, he, hterminal⟩ htransient
    refine (g.classifyFailure_eq_transient_iff.mp htransient).2 ⟨e, ?_, hterminal⟩
    exact g.mem_causeChain_of_wraps hwraps he

end Class

/-- A `ConnectionError` raised from a `FileNotFoundError`, which is made to lead back to it. -/
example :
    let g : ExceptionHeap Bool :=
      { typeName := fun e => if e then "ConnectionError" else "FileNotFoundError"
        classes := fun e =>
          if e then [.osError, .connectionError] else [.osError, .fileNotFoundError]
        cause := fun e => some !e
        context := fun _ => none
        suppressContext := fun _ => true }
    g.causeChain true = [true, false] ∧ g.classifyFailure true = .terminal := by
  decide

end ExceptionHeap

end Resilience

end SlmMcpHub
