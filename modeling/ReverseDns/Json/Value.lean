/-
# JSON values

The value tree shared by reports, log lines and their two text forms. An
object is its members in order; `put` keeps the place of a name that is set
again, and `sortKeys` orders all members by name, which is how two values that
differ only in member order are compared.

Key definitions: `Json.Value`, `Json.put`, `Json.Value.sortKeys`.
-/
import ReverseDns.Text
import ReverseDns.Decimal.Binary64

namespace ReverseDns
namespace Json

/-- A JSON value; integers and doubles are told apart. -/
inductive Value
  | null
  | bool (b : Bool)
  | int (n : Int)
  | float (x : Binary64)
  | str (t : Text)
  | arr (items : List Value)
  | obj (members : List (Text × Value))
deriving Inhabited

/-- The members of an object in order. -/
abbrev Members := List (Text × Value)

/-- Gives `name` the value `v`: in place if the name is there, else at the end. -/
def put (name : Text) (v : Value) : Members → Members
  | [] => [(name, v)]
  | (n, w) :: rest => if n = name then (n, v) :: rest else (n, w) :: put name v rest

/-- The value of a member. -/
def get? (name : Text) : Members → Option Value
  | [] => none
  | (n, v) :: rest => if n = name then some v else get? name rest

namespace Value

def ofOption {α : Type} (f : α → Value) : Option α → Value
  | none => .null
  | some a => f a

/-- A text, or null. -/
def text? (t : Option Text) : Value := ofOption .str t

mutual

/-- The same value with the members of every object in order of their names. -/
def sortKeys : Value → Value
  | .arr items => .arr (sortItems items)
  | .obj members => .obj ((sortMembers members).mergeSort fun a b => Text.le a.1 b.1)
  | v => v

def sortItems : List Value → List Value
  | [] => []
  | v :: vs => sortKeys v :: sortItems vs

def sortMembers : Members → Members
  | [] => []
  | (n, v) :: rest => (n, sortKeys v) :: sortMembers rest

end

end Value
end Json
end ReverseDns
