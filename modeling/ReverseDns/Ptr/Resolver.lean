/-
# Resolvers

A resolver may fail to start; once started it answers a name with a list of
targets or with trouble. Trouble is either a failure that the name system
reports or a fault from outside it. Failures are told apart by classes: a
failure of a special kind belongs to every class above its own, and a failure
of a kind that is not told apart belongs to none.

Key definitions: `Ptr.Failure`, `Ptr.Failure.isA`, `Ptr.Trouble`,
`Ptr.Resolver`, `Ptr.Trouble.category`.
-/
import ReverseDns.Fault

namespace ReverseDns
namespace Ptr

/-- The classes that failures are told apart by. -/
inductive Failure.Class
  /-- The name does not exist. -/
  | nonexistentName
  /-- The name has no record of the kind asked for. -/
  | noAnswer
  /-- Time ran out. -/
  | timeout
  /-- No server gave a usable answer. -/
  | noNameservers
  /-- No server is configured. -/
  | noConfiguration
deriving DecidableEq, Repr

/-- A failure that the name system reports, by the classes it belongs to. -/
structure Failure where
  classes : List Failure.Class
deriving DecidableEq, Repr

namespace Failure

/-- Whether a failure belongs to the class. -/
def isA (c : Class) (f : Failure) : Bool := f.classes.contains c

/-- Whether a failure says for certain that there is no record. -/
def isDefinite (f : Failure) : Bool := f.isA .nonexistentName || f.isA .noAnswer

def nonexistentName : Failure := ⟨[.nonexistentName]⟩
def noAnswer : Failure := ⟨[.noAnswer]⟩
def noNameservers : Failure := ⟨[.noNameservers]⟩
def noConfiguration : Failure := ⟨[.noConfiguration]⟩

/-- One query went unanswered. -/
def timeout : Failure := ⟨[.timeout]⟩

/-- All the time for the answer ran out, which is a kind of timeout. -/
def lifetimeExpired : Failure := ⟨[.timeout]⟩

/-- A failure that is not told apart from others. -/
def other : Failure := ⟨[]⟩

end Failure

/-- Why there is no answer. -/
inductive Trouble
  | failure (f : Failure)
  | fault (f : Fault)
deriving DecidableEq, Repr

/-- The trouble at the start, if there is any, and the answer to each name. -/
structure Resolver where
  start : Option Trouble := none
  answer : Text → Except Trouble (List Text)

/-- The word that a result without a definite answer gives for its trouble: that
of the first class in this order that the failure belongs to. -/
def Trouble.category : Trouble → Text
  | .failure f =>
    if f.isA .timeout then "timeout".toList
    else if f.isA .noNameservers then "no_nameservers".toList
    else if f.isA .noConfiguration then "no_resolver_configuration".toList
    else "unknown_error".toList
  | .fault _ => "unknown_error".toList

end Ptr
end ReverseDns
