/-
# Logging step by step

A sequence of steps that change the state of logging or write to it. A step
that converts or looks up also has a value, which depends on the step alone.

Key definitions: `Log.Step`, `Log.Session.step`, `Log.Session.run`.
-/
import ReverseDns.Conversion
import ReverseDns.Log.Session
import ReverseDns.Ptr.Lookup

namespace ReverseDns
namespace Log

/-- One step; a conversion takes so many whole milliseconds by the clock. -/
inductive Step
  | setup (verbose : Bool)
  | addHandler
  | log (r : Record)
  | convert (input : Text) (durationMs : Int := 0)
  | lookup (resolver : Ptr.Resolver) (name : Text)

/-- The value of a step. -/
inductive Step.Value
  | nothing
  | entry (e : Entry)
  | result (r : Ptr.Result)
deriving DecidableEq, Repr

/-- What a step leaves behind: its value, the lines written, the state. -/
structure Step.Outcome where
  value : Step.Value
  lines : List Text
  session : Session
deriving DecidableEq, Repr

namespace Step

/-- The value of a step and the records it logs. -/
def effect : Step → Except Fault (Value × List Record)
  | .setup _ | .addHandler => .ok (.nothing, [])
  | .log r => .ok (.nothing, [r])
  | .convert input durationMs =>
    let e := Entry.ofInput input
    .ok (.entry e, [e.record durationMs])
  | .lookup resolver name =>
    let l := Ptr.lookup resolver name
    l.outcome.map fun r => (.result r, l.records)

end Step

namespace Session

/-- The state after a step. -/
def next (s : Session) : Step → Session
  | .setup verbose => setup verbose
  | .addHandler => s.addHandler
  | _ => s

/-- Takes one step. -/
def step (s : Session) (stamp : Stamp) (a : Step) : Except Fault Step.Outcome := do
  let (value, records) ← a.effect
  let lines ← (s.next a).writeAll stamp records
  return ⟨value, lines, s.next a⟩

/-- Takes the steps in order, up to the first fault. -/
def run (s : Session) (stamp : Stamp) : List Step → Except Fault (List Step.Outcome)
  | [] => .ok []
  | a :: as => do
    let first ← s.step stamp a
    let rest ← first.session.run stamp as
    return first :: rest

end Session
end Log
end ReverseDns
