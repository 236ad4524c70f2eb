/-
# Labels of domain names

A label has one to 63 characters, letters, digits and hyphens of ASCII, and
neither the first nor the last is a hyphen. `fault?` names what is wrong: a
length above the limit before anything else, then emptiness, then the first
character that is illegal where it stands.

Key definitions: `Label.isOuter`, `Label.isInner`, `Label.fault?`,
`Label.IsValid`.
-/
import ReverseDns.Error

namespace ReverseDns
namespace Label

/-- The longest label. -/
def maxLength : Nat := 63

/-- May stand first and last: an ASCII letter or digit. -/
def isOuter (c : Char) : Bool := c.isAlphanum

/-- May stand between: also a hyphen. -/
def isInner (c : Char) : Bool := isOuter c || c == '-'

/-- Whether a text is a single character that may stand first and last. -/
def isOuterRune : Text → Bool
  | [c] => isOuter c
  | _ => false

/-- Whether a text is a single character that may stand between. -/
def isInnerRune : Text → Bool
  | [c] => isInner c
  | _ => false

/-- The label grammar. -/
def IsValid (t : Text) : Prop :=
  1 ≤ t.length ∧ t.length ≤ maxLength ∧ (∀ c ∈ t, isInner c) ∧ t.head? ≠ some '-' ∧
    t.getLast? ≠ some '-'

/-- The first illegal character after the first one. -/
def firstIllegalLater : Text → Option Char
  | [] => none
  | [c] => if isOuter c then none else some c
  | c :: cs => if isInner c then firstIllegalLater cs else some c

/-- The first character that is illegal at its position. -/
def firstIllegal : Text → Option Char
  | [] => none
  | c :: cs => if isOuter c then firstIllegalLater cs else some c

/-- What makes a text no label, if anything does. -/
def cause? (t : Text) : Option Error :=
  if maxLength < t.length then
    some (.length Subject.label t.length none (some maxLength))
  else if t = [] then some (.emptyLabel Error.emptyLabelText)
  else (firstIllegal t).map fun c => .rune Subject.label [c]

/-- The error of a text that is no label. -/
def fault? (t : Text) : Option Error := (cause? t).map (.malformedBy Subject.label t)

/-- Accepts labels. -/
def check (t : Text) : Except Error Unit :=
  match fault? t with
  | some e => .error e
  | none => .ok ()

end Label
end ReverseDns
