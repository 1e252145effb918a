import Mathlib.Algebra.Order.BigOperators.Group.Finset
import Mathlib.Data.Fin.VecNotation
import Mathlib.Data.Fintype.BigOperators
import Mathlib.Data.List.Infix
import SlmMcpHub.Library.Worklist

/-!
# Recognising a closed connection

`protocol/outbound.py`: `_is_discover_probe_rejection` goes through an exception and whatever it
leads to. A group leads to its members, any other exception to its cause and its context; one that
is raised while it is itself being handled, or is made to, leads back to where it came from.

## Main definitions

* `Raised`, `ExceptionGraph` — exceptions, and one of them with all that it leads to
* `probeRejectionLoop`, `isDiscoverProbeRejection` — the loop, and what comes of it

## Main results

* `isDiscoverProbeRejection_spec` — the loop ends, and is right
-/

namespace SlmMcpHub

namespace Outbound

/-- What the handlers of `OutboundClient.connect` tell exceptions apart by. -/
inductive ExcKind where
  | oAuthFlowError
  | fileNotFoundError
  | osError
  /-- Any other `Exception`. -/
  | exception
  /-- None of `Exception`. -/
  | baseException
  deriving DecidableEq

/-- An exception; the others it refers to are known by what `id` gives. -/
structure Raised (E : Type) where
  kind : ExcKind
  typeName : String := "Exception"
  /-- `str(exc)` -/
  message : String
  /-- Those of a `BaseExceptionGroup`. -/
  exceptions : Option (List E) := none
  cause : Option E := none
  context : Option E := none

/-- An exception with all that it leads to. -/
structure ExceptionGraph where
  size : ℕ
  raised : Fin size → Raised (Fin size)
  root : Fin size

namespace ExceptionGraph

variable (g : ExceptionGraph)

/-- Where an exception leads: the members of a group, or the cause and the context. -/
def next (e : Fin g.size) : List (Fin g.size) :=
  match (g.raised e).exceptions with
  | some members => members
  | none => (g.raised e).cause.toList ++ (g.raised e).context.toList

/-- `"closed" in str(exc).lower()`; no letters but these become those of the word. -/
def saysClosed (message : String) : Bool :=
  "closed".toList <:+: message.toList.map Char.toLower

/-- An exception that is no group, and whose message has the word in it. -/
def isClosed (e : Fin g.size) : Bool :=
  (g.raised e).exceptions.isNone && saysClosed (g.raised e).message

/-- An exception the root leads to. -/
def Leads (e : Fin g.size) : Prop := Relation.ReflTransGen (Worklist.Follows g.next) g.root e

/-- `_is_discover_probe_rejection`, for so many rounds of its loop. -/
def probeRejectionLoop (rounds : ℕ) : Option Bool :=
  Worklist.search g.next g.isClosed rounds [g.root] []

/-- More rounds than the loop has. -/
def rounds : ℕ := 2 + ∑ e, (g.next e).length

/-- `_is_discover_probe_rejection` -/
def isDiscoverProbeRejection : Bool := (g.probeRejectionLoop g.rounds).getD false

theorem probeRejectionLoop_rounds :
    g.probeRejectionLoop g.rounds = some g.isDiscoverProbeRejection := by
  have hle : ∑ e ∈ Finset.univ.filter (· ∉ []), (g.next e).length ≤ ∑ e, (g.next e).length :=
    Finset.sum_le_sum_of_subset (Finset.filter_subset _ _)
  have hends : ∃ b, Worklist.search g.next g.isClosed g.rounds [g.root] [] = some b := by
    refine Worklist.exists_search_eq (F := Finset.univ) (fun _ _ _ _ => Finset.mem_univ _)
      (fun _ _ => Finset.mem_univ _) ?_
    rw [List.length_singleton, rounds]
    omega
  obtain ⟨b, hb⟩ := hends
  rw [isDiscoverProbeRejection, probeRejectionLoop, hb, Option.getD_some]

/-- **The loop ends, and is right**: it finds an exception the root leads to that is no group and
says that something was closed, whenever there is one. -/
theorem isDiscoverProbeRejection_spec :
    (∀ n, g.rounds ≤ n → g.probeRejectionLoop n = some g.isDiscoverProbeRejection) ∧
      (g.isDiscoverProbeRejection = true ↔ ∃ e, g.Leads e ∧
        (g.raised e).exceptions = none ∧ saysClosed (g.raised e).message = true) := by
  refine ⟨fun n hn => Worklist.search_of_le g.probeRejectionLoop_rounds hn, ?_⟩
  rw [Worklist.search_eq_true_iff g.probeRejectionLoop_rounds]
  refine exists_congr fun e => and_congr ?_ ?_
  · constructor
    · rintro ⟨v, hv, hreach⟩
      rwa [List.mem_singleton.mp hv] at hreach
    · exact fun hreach => ⟨g.root, List.mem_singleton_self _, hreach⟩
  · rw [isClosed, Bool.and_eq_true, Option.isNone_iff_eq_none]

/-- Two exceptions that were raised while each other was handled, in a group. -/
example : isDiscoverProbeRejection
    { size := 3
      raised := ![{ kind := .exception, message := "2 errors", exceptions := some [1, 2] },
        { kind := .exception, message := "Timed out", context := some 2 },
        { kind := .exception, message := "Connection Closed", context := some 1 }]
      root := 0 } = true := by
  decide

end ExceptionGraph

end Outbound

end SlmMcpHub
