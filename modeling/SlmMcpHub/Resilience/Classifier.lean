import SlmMcpHub.Federation.Signature

/-!
# The failure taxonomy

`resilience/classifier.py`: an exception, with what it was raised from, becomes a `FailureClass`.

An exception is known by the classes its handlers ask for. A chain of causes that goes round in a
circle is cut where it closes; unrolled to its first twenty members it is made of the same ones.

## Main definitions

* `Raised` — exceptions with their causes
* `causeChain`, `classifyFailure` — the chain, and the class read off it
* `Raised.toExc` — what the hub keeps of an exception

## Main results

* `classifyFailure_eq_auth_iff`, `classifyFailure_eq_terminal_iff` — the class in terms of the chain
* `classify_toExc` — the hub gives an exception the class it has
-/

namespace SlmMcpHub

namespace Resilience

/-- The classes of exceptions that handlers ask for. -/
inductive ExcClass where
  | exception
  | cancelledError
  | oAuthAuthRequiredError
  | connectionError
  | timeoutError
  | osError
  | fileNotFoundError
  | permissionError
  | isADirectoryError
  | notImplementedError
  | importError
  deriving DecidableEq

/-- An exception: the name of its type, the classes it is an instance of, its `__cause__`, its
`__context__` and its `__suppress_context__`. -/
inductive Raised where
  | mk (typeName : String) (classes : List ExcClass) (cause context : Option Raised)
    (suppressContext : Bool)

namespace Raised

/-- `type(exc).__name__` -/
def typeName : Raised → String
  | mk typeName _ _ _ _ => typeName

/-- `isinstance` of one of some classes. -/
def isinstance : Raised → List ExcClass → Bool
  | mk _ classes _ _ _, cs => classes.any (· ∈ cs)

/-- The exception the chain goes on with. -/
def next : Raised → Option Raised
  | mk _ _ (some cause) _ _ => some cause
  | mk _ _ none (some context) false => some context
  | mk _ _ none _ _ => none

/-- `asyncio.CancelledError()` -/
def cancelled : Raised := mk "CancelledError" [.cancelledError] none none false

/-- `AssertionError()` -/
def assertion : Raised := mk "AssertionError" [.exception] none none false

/-- `raise ConnectionError(...) from exc` -/
def connectionFrom (exc : Raised) : Raised :=
  mk "ConnectionError" [.exception, .osError, .connectionError] (some exc) (some exc) true

end Raised

/-- `_MAX_DEPTH` -/
def maxDepth : ℕ := 20

/-- `_cause_chain`, at most so many exceptions of it. -/
def causeChain : ℕ → Raised → List Raised
  | 0, _ => []
  | depth + 1, exc => exc :: (exc.next.elim [] (causeChain depth))

/-- `_TERMINAL_EXC_TYPES` -/
def terminalExcTypes : List ExcClass :=
  [.fileNotFoundError, .permissionError, .isADirectoryError, .notImplementedError, .importError]

/-- `_TRANSIENT_EXC_TYPES` -/
def transientExcTypes : List ExcClass := [.connectionError, .timeoutError, .osError]

/-- `classify_failure` -/
def classifyFailure (exc : Raised) : FailureClass :=
  let chain := causeChain maxDepth exc
  if chain.any fun e => e.isinstance [.oAuthAuthRequiredError] then .auth
  else if chain.any fun e => e.isinstance terminalExcTypes then .terminal
  else if chain.any fun e => e.isinstance transientExcTypes then .transient
  else .transient

/-- Authorization comes before everything else. -/
theorem classifyFailure_eq_auth_iff {exc : Raised} : classifyFailure exc = .auth ↔
    ∃ e ∈ causeChain maxDepth exc, e.isinstance [.oAuthAuthRequiredError] = true := by
  rw [← List.any_eq_true, classifyFailure]
  split
  · next hauth => exact iff_of_true rfl hauth
  · next hauth =>
    refine iff_of_false ?_ hauth
    split
    · exact nofun
    · split <;> exact nofun

/-- What needs an administrator is found anywhere in the chain. -/
theorem classifyFailure_eq_terminal_iff {exc : Raised} : classifyFailure exc = .terminal ↔
    classifyFailure exc ≠ .auth ∧
      ∃ e ∈ causeChain maxDepth exc, e.isinstance terminalExcTypes = true := by
  rw [← List.any_eq_true, classifyFailure]
  split
  · exact iff_of_false nofun fun h => h.1 rfl
  · split
    · next hterminal => exact iff_of_true rfl ⟨nofun, hterminal⟩
    · next hterminal =>
      refine iff_of_false ?_ fun h => hterminal h.2
      split <;> exact nofun

/-- In a chain that is not cut, one more exception in front changes nothing. -/
theorem classifyFailure_connectionFrom {exc : Raised}
    (hshort : causeChain (maxDepth - 1) exc = causeChain maxDepth exc) :
    classifyFailure exc.connectionFrom = classifyFailure exc := by
  have hchain : causeChain maxDepth exc.connectionFrom =
      exc.connectionFrom :: causeChain maxDepth exc := by
    rw [← hshort]
    rfl
  have hplain : exc.connectionFrom.isinstance [.oAuthAuthRequiredError] = false ∧
      exc.connectionFrom.isinstance terminalExcTypes = false := ⟨rfl, rfl⟩
  simp only [classifyFailure, hchain, List.any_cons, hplain, Bool.false_or, ite_self]

/-! ### The exceptions of the hub -/

namespace Raised

/-- How the classes of an exception that reaches the hub belong together: a `CancelledError` is the
only one that is no `Exception`. -/
structure Proper (exc : Raised) : Prop where
  cancelled : exc.isinstance [.cancelledError] = !exc.isinstance [.exception]
  connection : exc.isinstance [.connectionError] = true → exc.isinstance [.exception] = true
  auth : exc.isinstance [.oAuthAuthRequiredError] = true →
    exc.isinstance [.exception] = true ∧ exc.isinstance [.connectionError] = false

/-- What the hub keeps of an exception with some text. -/
def toExc (exc : Raised) (message : String) : Exc :=
  if exc.isinstance [.oAuthAuthRequiredError] then .authRequired
  else if exc.isinstance [.connectionError] then .connection message (classifyFailure exc)
  else if exc.isinstance [.exception] then .other exc.typeName message (classifyFailure exc)
  else .cancelled

variable {exc : Raised} {message : String}

theorem toExc_of_auth (h : exc.isinstance [.oAuthAuthRequiredError] = true) :
    exc.toExc message = .authRequired := if_pos h

theorem toExc_of_connection (hauth : exc.isinstance [.oAuthAuthRequiredError] = false)
    (h : exc.isinstance [.connectionError] = true) :
    exc.toExc message = .connection message (classifyFailure exc) := by
  rw [toExc, hauth, if_neg Bool.false_ne_true, if_pos h]

theorem toExc_of_exception (hauth : exc.isinstance [.oAuthAuthRequiredError] = false)
    (hconnection : exc.isinstance [.connectionError] = false)
    (h : exc.isinstance [.exception] = true) :
    exc.toExc message = .other exc.typeName message (classifyFailure exc) := by
  rw [toExc, hauth, hconnection, if_neg Bool.false_ne_true, if_neg Bool.false_ne_true, if_pos h]

theorem toExc_of_cancelled (hproper : exc.Proper) (h : exc.isinstance [.exception] = false) :
    exc.toExc message = .cancelled := by
  have hconnection : ¬ exc.isinstance [.connectionError] = true := fun hc => by
    rw [hproper.connection hc] at h
    cases h
  have hauth : ¬ exc.isinstance [.oAuthAuthRequiredError] = true := fun ha => by
    rw [(hproper.auth ha).1] at h
    cases h
  rw [toExc, if_neg hauth, if_neg hconnection, if_neg (by rw [h]; exact Bool.false_ne_true)]

/-- `except Exception` catches the same. -/
theorem isException_toExc (hproper : exc.Proper) :
    (exc.toExc message).isException = exc.isinstance [.exception] := by
  cases hexception : exc.isinstance [.exception] with
  | false => rw [toExc_of_cancelled hproper hexception]; rfl
  | true =>
    cases hauth : exc.isinstance [.oAuthAuthRequiredError] with
    | true => rw [toExc_of_auth hauth]; rfl
    | false =>
      cases hconnection : exc.isinstance [.connectionError] with
      | true => rw [toExc_of_connection hauth hconnection]; rfl
      | false => rw [toExc_of_exception hauth hconnection hexception]; rfl

/-- **The hub gives an exception the class it has.** -/
theorem classify_toExc (h : exc.isinstance [.exception] = true) :
    (exc.toExc message).classify = classifyFailure exc := by
  cases hauth : exc.isinstance [.oAuthAuthRequiredError] with
  | true =>
    rw [toExc_of_auth hauth]
    exact (classifyFailure_eq_auth_iff.mpr ⟨exc, List.mem_cons_self .., hauth⟩).symm
  | false =>
    cases hconnection : exc.isinstance [.connectionError] with
    | true => rw [toExc_of_connection hauth hconnection]; rfl
    | false => rw [toExc_of_exception hauth hconnection h]; rfl

end Raised

end Resilience

end SlmMcpHub
