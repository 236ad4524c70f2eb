/-
# Text as a list of characters

Names, addresses, messages and reports are all handled as lists of Unicode
characters, so that lengths count characters and every reader and writer is a
recursion on a list. Numbers are written in two ways: as many digits as they
need (`Nat.toDigits` of the core library, `decimal` for integers) or in a field
of fixed width (`padded`).

Key definitions: `Text`, `Text.join`, `Text.decimal`, `Text.padded`.
-/

namespace ReverseDns

/-- A text is the list of its characters. -/
abbrev Text := List Char

namespace Text

/-- The words with `sep` between neighbours. -/
def join (sep : Text) (words : List Text) : Text := sep.intercalate words

/-- An integer in decimal, a minus sign before a negative one. There is such a text of an
integer of any length; `Integer.check` refuses to write those that are too long. -/
def decimal (n : Int) : Text :=
  if n < 0 then '-' :: Nat.toDigits 10 n.natAbs else Nat.toDigits 10 n.natAbs

/-- The last `width` digits of `n`, zeros in front: a field of fixed width. -/
def padded (base : Nat) : (width : Nat) → (n : Nat) → Text
  | 0, _ => []
  | width + 1, n => padded base width (n / base) ++ [Nat.digitChar (n % base)]

theorem length_padded (base : Nat) : ∀ width n : Nat, (padded base width n).length = width
  | 0, _ => rfl
  | width + 1, n => by simp [padded, length_padded base width]

/-- The value of a hexadecimal digit of either case. -/
def hexDigit? (c : Char) : Option Nat :=
  if '0' ≤ c ∧ c ≤ '9' then some (c.toNat - '0'.toNat)
  else if 'a' ≤ c ∧ c ≤ 'f' then some (c.toNat - 'a'.toNat + 10)
  else if 'A' ≤ c ∧ c ≤ 'F' then some (c.toNat - 'A'.toNat + 10)
  else none

/-- The number that a list of hexadecimal digits denotes, most significant
digit first. -/
def hexNumber? (digits : Text) : Option Nat :=
  digits.foldl (fun n? c => do return (← n?) * 16 + (← hexDigit? c)) (some 0)

/-- Code-point order, shorter first on a common beginning. -/
def le (s t : Text) : Bool := !decide (t < s)

end Text
end ReverseDns
