/-
# Classes of errors

The classes form a tree: every error is of class `any`, and the empty label and
the name that is not a reverse name are failed validations. `find?` looks down
an error's chain for the first error of a class, and `position?` says how far
down it is. A fault from outside the library belongs to no class.

Key definitions: `Error.Class`, `Error.Class.includes`, `Error.isA`, `Error.find?`,
`Error.position?`, `Failure.has`.
-/
import ReverseDns.Error
import ReverseDns.Fault

namespace ReverseDns
namespace Error

/-- A class of errors. -/
inductive Class
  | any
  | validation
  | emptyLabel
  | notReversed
  | address
  | rune
  | length
deriving DecidableEq, Repr

/-- The class of an error itself. -/
def class_ : Error → Class
  | malformed .. | malformedBy .. => .address
  | rune .. => .rune
  | length .. => .length
  | invalid _ => .validation
  | emptyLabel _ => .emptyLabel
  | notReversed _ => .notReversed
  | general _ => .any

/-- Whether errors of class `d` are errors of class `c`. -/
def Class.includes (c d : Class) : Bool :=
  c == d || c == .any || (c == .validation && (d == .emptyLabel || d == .notReversed))

/-- Whether an error itself is of the class. -/
def isA (c : Class) (e : Error) : Bool := c.includes e.class_

/-- The first error of the class, from the outermost down the causes. -/
def find? (c : Class) : Error → Option Error
  | malformedBy subject value cause =>
    if isA c (malformedBy subject value cause) then some (malformedBy subject value cause)
    else find? c cause
  | e => if isA c e then some e else none

/-- Where in the chain that error stands, the outermost being at zero. -/
def position? (c : Class) (e : Error) : Option Nat :=
  e.chain.findIdx? (isA c)

end Error

/-- What a call can end in: an error of the library, or a fault from outside. -/
inductive Failure
  | error (e : Error)
  | fault (f : Fault)
deriving DecidableEq, Repr

/-- Whether a failure has an error of the class in its chain. -/
def Failure.has (c : Error.Class) : Failure → Bool
  | .error e => (Error.find? c e).isSome
  | .fault _ => false

end ReverseDns
