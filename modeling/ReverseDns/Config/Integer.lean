/-
# Integers in settings and reports

An integer is read from an optional sign and decimal digits of any script, with
single underscores allowed between digits and white space around the whole. One of
more than 4300 digits is neither read nor written.

Key definitions: `Integer.read?`, `Integer.digits?`, `Integer.check`.
-/
import ReverseDns.Fault
import ReverseDns.Text.Blank
import ReverseDns.Text.DecimalDigit

namespace ReverseDns
namespace Integer

/-- The most digits that are read, leading zeros included, and that are written. -/
def maxDigits : Nat := 4300

/-- The values of one or more digits with single underscores between them. -/
def digits? : Text → Option (List Nat)
  | [] => none
  | [c] => (Text.decimalDigit? c).map ([·])
  | c :: '_' :: cs => do
    let d ← Text.decimalDigit? c
    let ds ← digits? cs
    return d :: ds
  | c :: c' :: cs => do
    let d ← Text.decimalDigit? c
    let ds ← digits? (c' :: cs)
    return d :: ds

/-- The number that digits denote, most significant first. -/
def value (ds : List Nat) : Nat := ds.foldl (fun n d => n * 10 + d) 0

/-- The number that an unsigned text denotes. -/
def readDigits? (t : Text) : Option Nat :=
  match digits? t with
  | some ds => if ds.length ≤ maxDigits then some (value ds) else none
  | none => none

/-- Reads an integer. -/
def read? (t : Text) : Option Int :=
  match Text.trimOf Text.isNumeralBlank t with
  | '-' :: t => (readDigits? t).map fun n => -(n : Int)
  | '+' :: t => (readDigits? t).map fun n => (n : Int)
  | t => (readDigits? t).map fun n => (n : Int)

/-- Whether an integer has no more digits than are written. -/
def isShort (n : Int) : Bool := (Nat.toDigits 10 n.natAbs).length ≤ maxDigits

/-- The fault of writing one that has more. -/
def tooLong : Fault :=
  ⟨.value, "Exceeds the limit (".toList ++ Text.decimal maxDigits
    ++ " digits) for integer string conversion; ".toList
    ++ "use sys.set_int_max_str_digits() to increase the limit".toList⟩

/-- Refuses to write an integer that is too long. -/
def check (n : Int) : Except Fault Unit := if isShort n then .ok () else .error tooLong

end Integer
end ReverseDns
