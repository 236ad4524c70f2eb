/-
# Building, saving and restoring errors

An error is built from what its class asks for. The message of a failed check may be
left out, and then it is that of its class. A saved error is the list of its chain's
layers, outermost first, each with its class, the arguments to build it from again, and
the message that it holds itself if it was built with one; the cause of an address error
is the rest of the list. `restore?` builds the error again, and refuses lists that no
error is saved as.

Key definitions: `Error.Check`, `Error.Recipe`, `Error.Recipe.error`, `Error.Layer`,
`Error.Recipe.save`, `Error.save`, `Error.restore?`.
Key theorem: `Error.restore?_save`.
-/
import ReverseDns.Error.Class

namespace ReverseDns
namespace Error

/-! ### Building -/

/-- The checks whose errors are told apart by their classes. -/
inductive Check
  | invalid
  | emptyLabel
  | notReversed
deriving DecidableEq, Repr

namespace Check

/-- The message of the check's errors that are built without one. -/
def text : Check → Text
  | invalid => invalidText
  | emptyLabel => emptyLabelText
  | notReversed => notReversedText

def class_ : Check → Class
  | invalid => .validation
  | emptyLabel => .emptyLabel
  | notReversed => .notReversed

def error : Check → Text → Error
  | invalid => .invalid
  | emptyLabel => .emptyLabel
  | notReversed => .notReversed

def ofClass? : Class → Option Check
  | .validation => some invalid
  | .emptyLabel => some emptyLabel
  | .notReversed => some notReversed
  | _ => none

@[simp] theorem ofClass?_class (c : Check) : ofClass? c.class_ = some c := by cases c <;> rfl

end Check

/-- What an error is built from. -/
inductive Recipe
  | general (message : Text)
  | check (c : Check) (message : Option Text)
  | rune (subject rune : Text)
  | length (subject : Text) (length : Int) (allowed limit : Option Int)
  | malformed (subject value : Text)
  | malformedBy (subject value : Text) (cause : Recipe)
deriving DecidableEq, Repr

/-- The error that is built. -/
def Recipe.error : Recipe → Error
  | general m => .general m
  | check c m => c.error (m.getD c.text)
  | rune subject r => .rune subject r
  | length subject n allowed limit => .length subject n allowed limit
  | malformed subject value => .malformed subject value
  | malformedBy subject value cause => .malformedBy subject value cause.error

/-- What an error can be built from: its message is given also where it is that of
its class. -/
def recipe : Error → Recipe
  | malformed subject value => .malformed subject value
  | malformedBy subject value cause => .malformedBy subject value (recipe cause)
  | rune subject r => .rune subject r
  | length subject n allowed limit => .length subject n allowed limit
  | invalid m => .check .invalid (some m)
  | emptyLabel m => .check .emptyLabel (some m)
  | notReversed m => .check .notReversed (some m)
  | general m => .general m

/-- Every error can be built. -/
@[simp] theorem error_recipe : ∀ e : Error, e.recipe.error = e
  | malformedBy subject value cause => by rw [recipe, Recipe.error, error_recipe cause]
  | malformed .. | rune .. | length .. | invalid _ | emptyLabel _ | notReversed _ | general _ => rfl

/-! ### Saving -/

/-- One argument of an error. -/
inductive Argument
  | text (t : Text)
  | number (n : Int)
  | absent
deriving DecidableEq, Repr

/-- One error of a chain without its cause: its class, its arguments, and the message
that it holds itself. -/
structure Layer where
  class_ : Class
  arguments : List Argument
  own : Option Text := none
deriving DecidableEq, Repr

namespace Argument

def ofNumber? : Option Int → Argument
  | some n => .number n
  | none => .absent

def number? : Argument → Option (Option Int)
  | .number n => some (some n)
  | .absent => some none
  | .text _ => none

@[simp] theorem number?_ofNumber? : ∀ n : Option Int, number? (ofNumber? n) = some n
  | some _ => rfl
  | none => rfl

end Argument

/-- The layers of an error, outermost first. A failed check has its message among the
arguments even if that is the message of its class. -/
def Recipe.save : Recipe → List Layer
  | general m => [{ class_ := .any, arguments := [.text m] }]
  | check c m => [{ class_ := c.class_, arguments := [.text (m.getD c.text)], own := m }]
  | rune subject r => [{ class_ := .rune, arguments := [.text subject, .text r] }]
  | length subject n allowed limit =>
    [{ class_ := .length
       arguments := [.text subject, .number n, .ofNumber? allowed, .ofNumber? limit] }]
  | malformed subject value => [{ class_ := .address, arguments := [.text subject, .text value] }]
  | malformedBy subject value cause =>
    { class_ := .address, arguments := [.text subject, .text value] } :: save cause

/-- The layers of an error that holds its message itself, if it is a failed check. -/
def save (e : Error) : List Layer := e.recipe.save

/-! ### Restoring -/

/-- The error of a failed check by its class, its argument, and the message that it
holds itself; the two are one message if there are both. -/
def restoreCheck? (c : Class) (m : Text) (own : Option Text) : Option Error :=
  if own.getD m = m then (Check.ofClass? c).map fun check => check.error m else none

/-- The error that a list of layers was saved from. -/
def restore? : List Layer → Option Error
  | [] => none
  | [⟨.address, [.text subject, .text value], none⟩] => some (malformed subject value)
  | ⟨.address, [.text subject, .text value], none⟩ :: rest =>
    (restore? rest).map (malformedBy subject value)
  | [⟨.rune, [.text subject, .text r], none⟩] => some (rune subject r)
  | [⟨.length, [.text subject, .number n, allowed, limit], none⟩] => do
    return length subject n (← allowed.number?) (← limit.number?)
  | [⟨.any, [.text m], none⟩] => some (general m)
  | [⟨c, [.text m], own⟩] => restoreCheck? c m own
  | _ => none

theorem Recipe.save_ne_nil (r : Recipe) : r.save ≠ [] := by
  cases r <;> simp [save]

theorem restoreCheck?_save (c : Check) (m : Option Text) :
    restoreCheck? c.class_ (m.getD c.text) m = some (c.error (m.getD c.text)) := by
  cases m <;> simp [restoreCheck?]

/-- **Restoring a saved error gives the error back**, however it was built. -/
theorem restore?_save : ∀ r : Recipe, restore? r.save = some r.error
  | .malformedBy subject value cause => by
    have ih := restore?_save cause
    match h : cause.save with
    | [] => exact absurd h cause.save_ne_nil
    | layer :: rest => simp_all [Recipe.save, Recipe.error, restore?]
  | .check c m => by
    have h := restoreCheck?_save c m
    cases c <;> exact h
  | .length .. => by simp [Recipe.save, Recipe.error, restore?]
  | .general _ | .malformed .. | .rune .. => rfl

end Error
end ReverseDns
