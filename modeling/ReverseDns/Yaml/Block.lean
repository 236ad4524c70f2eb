/-
# Values in block layout

Every member of an object and every item of a list has a line of its own. An
object below a key is indented by two; a list below a key has its dashes in the
column of the key; an object in a list begins on the line of the dash. Empty
lists and objects are written as brackets. Member names are written as they are,
so they have to be plain.

Key definitions: `Yaml.members`, `Yaml.items`, `Yaml.document`.
-/
import ReverseDns.Json.Write
import ReverseDns.Yaml.Fold

namespace ReverseDns
namespace Yaml

open Json (Value Members)

/-- A value without parts after a key or a dash that ends at `column`. -/
def scalar (indent column : Nat) : Value → Text
  | .str t => string indent column t
  | v => ' ' :: v.scalar

mutual

/-- What follows a key that ends at `column`, in an object indented by `n`. -/
def afterKey (n column : Nat) : Value → Text
  | .obj (m :: ms) => '\n' :: members (n + 2) (m :: ms)
  | .arr (v :: vs) => '\n' :: items n (v :: vs)
  | v => scalar (n + 2) column v ++ ['\n']

/-- What follows a dash, in a list indented by `n`. -/
def afterDash (n : Nat) : Value → Text
  | .obj ((name, v) :: ms) =>
    ' ' :: (name ++ ':' :: (afterKey (n + 2) (n + 2 + name.length + 1) v ++ members (n + 2) ms))
  | .arr (v :: vs) => ' ' :: '-' :: (afterDash (n + 2) v ++ items (n + 2) vs)
  | v => scalar (n + 2) (n + 1) v ++ ['\n']

/-- The lines of an object indented by `n`. -/
def members (n : Nat) : Members → Text
  | [] => []
  | (name, v) :: ms =>
    spaces n ++ (name ++ ':' :: (afterKey n (n + name.length + 1) v ++ members n ms))

/-- The lines of a list indented by `n`. -/
def items (n : Nat) : List Value → Text
  | [] => []
  | v :: vs => spaces n ++ ('-' :: (afterDash n v ++ items n vs))

end

/-- The lines of a whole document. -/
def document (ms : Members) : Text := members 0 ms

end Yaml
end ReverseDns
