/-
# The state of logging

A session has a number of handlers and a level. Setting up replaces all
handlers by one and sets the level. A record at or above the level is written
once by every handler; while there is no handler, a record of at least warning
level is written as its bare message.

Key definitions: `Log.Session`, `Log.Session.setup`, `Log.Session.addHandler`,
`Log.Session.write`, `Log.Session.writeAll`.
-/
import ReverseDns.Log.Line

namespace ReverseDns
namespace Log

/-- How many handlers there are and from which level they write. -/
structure Session where
  handlers : Nat := 0
  level : Level := .warning
deriving DecidableEq, Repr

namespace Session

/-- One handler instead of all others, from debug level on if `verbose`. -/
def setup (verbose : Bool) : Session := ⟨1, if verbose then .debug else .info⟩

/-- One handler more. -/
def addHandler (s : Session) : Session := { s with handlers := s.handlers + 1 }

/-- Whether a record of the level gets past the session's level. -/
def enabled (s : Session) (level : Level) : Bool := s.level.rank ≤ level.rank

/-- The lines that a record gives. Only a record that gets past the level is
built at all, so only then a clash of names is a fault. Each handler reads the clock
for its own line; here it is held still, so that they write the same line. -/
def write (s : Session) (stamp : Stamp) (r : Record) : Except Fault (List Text) :=
  if !s.enabled r.level then .ok []
  else
    match r.clash? with
    | some name => .error (Record.clashFault name)
    | none =>
      if s.handlers = 0 then
        .ok (if Level.rank .warning ≤ r.level.rank then r.message.splitOn '\n' else [])
      else .ok (List.replicate s.handlers (r.line stamp))

/-- The lines of several records in order, the clock held still from the first to the
last. -/
def writeAll (s : Session) (stamp : Stamp) : List Record → Except Fault (List Text)
  | [] => .ok []
  | r :: rs => do
    let first ← s.write stamp r
    let rest ← s.writeAll stamp rs
    return first ++ rest

end Session
end Log
end ReverseDns
