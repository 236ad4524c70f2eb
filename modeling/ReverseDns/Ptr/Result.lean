/-
# Results of pointer lookups

A lookup resolves a reverse name to host names, or finds that there are none,
or stays without a definite answer and says why.

Key definitions: `Ptr.Status`, `Ptr.Result`.
-/
import ReverseDns.Json.Value

namespace ReverseDns
namespace Ptr

/-- How a lookup ended. -/
inductive Status
  | resolved
  | notFound
  | unknown
deriving DecidableEq, Repr

def Status.text : Status → Text
  | .resolved => "RESOLVED".toList
  | .notFound => "NOT_FOUND".toList
  | .unknown => "UNKNOWN".toList

/-- The result of one lookup. -/
structure Result where
  name : Text
  status : Status
  hostnames : List Text := []
  responseData : Text := []
deriving DecidableEq, Repr

namespace Result

def isResolved (r : Result) : Bool := r.status == .resolved

def isUnknown (r : Result) : Bool := r.status == .unknown

/-- The result as an object. -/
def value (r : Result) : Json.Value :=
  .obj
    [("name".toList, .str r.name), ("status".toList, .str r.status.text),
      ("hostnames".toList, .arr (r.hostnames.map .str)),
      ("response_data".toList, .str r.responseData)]

end Result
end Ptr
end ReverseDns
