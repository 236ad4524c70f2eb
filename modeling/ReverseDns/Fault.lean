/-
# Faults from outside

A fault is a failure that the library does not raise itself but can meet: a
resolver that breaks, an output that cannot be written, a number that does not
fit. It has a kind and a text of its own.

Key definitions: `Fault`, `Fault.describe`.
-/
import ReverseDns.Text

namespace ReverseDns

/-- The kinds of faults. -/
inductive Fault.Kind
  | runtime
  | value
  | system
  | key
  | overflow
deriving DecidableEq, Repr

/-- A failure from outside the library. -/
structure Fault where
  kind : Fault.Kind
  text : Text
deriving DecidableEq, Repr

namespace Fault

/-- The name of a kind, as logs give it. -/
def Kind.name : Kind → Text
  | .runtime => "RuntimeError".toList
  | .value => "ValueError".toList
  | .system => "OSError".toList
  | .key => "KeyError".toList
  | .overflow => "OverflowError".toList

/-- The kind and, if there is one, the text. -/
def describe (f : Fault) : Text :=
  if f.text = [] then f.kind.name else f.kind.name ++ ": ".toList ++ f.text

end Fault
end ReverseDns
