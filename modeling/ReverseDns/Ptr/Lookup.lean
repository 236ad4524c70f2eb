/-
# Looking up pointer records

A lookup asks a resolver for the host names of a reverse name. A name that does
not exist and one without pointer records are definite answers; every other
failure of the name system leaves the result unknown and is logged; a fault goes
on to the caller.

Key definitions: `Ptr.Query`, `Ptr.Lookup`, `Ptr.classify`, `Ptr.lookup`.
-/
import ReverseDns.Log.Record
import ReverseDns.Ptr.Resolver
import ReverseDns.Ptr.Result

namespace ReverseDns
namespace Ptr

/-- A query that was made: the name and the seconds it may take in all. -/
structure Query where
  name : Text
  lifetime : Int
deriving DecidableEq, Repr

/-- A lookup: its outcome, the queries made and the records logged. -/
structure Lookup where
  outcome : Except Fault Result
  queries : List Query := []
  records : List Log.Record := []

/-- The outcome of a lookup by what the resolver said. -/
def classify (name : Text) : Except Trouble (List Text) → Except Fault Result
  | .ok [] => .ok ⟨name, .notFound, [], []⟩
  | .ok targets => .ok ⟨name, .resolved, targets.mergeSort Text.le, []⟩
  | .error (.failure f) =>
    if f.isDefinite then .ok ⟨name, .notFound, [], []⟩
    else .ok ⟨name, .unknown, [], (Trouble.failure f).category⟩
  | .error (.fault f) => .error f

/-- What is logged of the outcome: results that stay unknown. -/
def logged : Except Fault Result → List Log.Record
  | .ok r => if r.isUnknown then [.lookupFailed r.name r.responseData] else []
  | .error _ => []

/-- Asks the resolver for the host names of a reverse name. -/
def lookup (resolver : Resolver) (name : Text) (timeout : Int := 5) : Lookup :=
  match resolver.start with
  | some trouble =>
    let outcome := classify name (.error trouble)
    { outcome, records := logged outcome }
  | none =>
    let outcome := classify name (resolver.answer name)
    { outcome, queries := [⟨name, timeout⟩], records := logged outcome }

end Ptr
end ReverseDns
