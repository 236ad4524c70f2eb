/-
# Texts that read as something other than a string

A YAML reader takes some unquoted texts for booleans, nulls, numbers, times or
one of two operators. A string spelled like one of them has to be quoted.

Key definitions: `Yaml.isTyped`.
-/
import ReverseDns.Text

namespace ReverseDns
namespace Yaml

/-- The spellings of booleans and nulls, and the merge and value operators. -/
def words : List Text :=
  ["yes", "Yes", "YES", "no", "No", "NO", "true", "True", "TRUE", "false", "False", "FALSE",
    "on", "On", "ON", "off", "Off", "OFF", "~", "null", "Null", "NULL", "<<", "="].map String.toList

/-- A text without its sign, if it has one. -/
def unsigned : Text → Text
  | '+' :: t => t
  | '-' :: t => t
  | t => t

/-- A digit, or the underscore that may stand between digits. -/
def isDigitOrBar (c : Char) : Bool := c.isDigit || c == '_'

/-- One or two digits that count sixtieths. -/
def isSixtieth : Text → Bool
  | [c] => c.isDigit
  | [c, d] => '0' ≤ c && c ≤ '5' && d.isDigit
  | _ => false

/-- A number followed by sixtieths, all with colons between them. -/
def isSexagesimal (first : Char → Bool) (t : Text) : Bool :=
  match t.splitOn ':' with
  | (c :: cs) :: p :: ps => first c && cs.all isDigitOrBar && (p :: ps).all isSixtieth
  | _ => false

/-- Whole numbers: decimal, binary, octal, hexadecimal or sexagesimal. -/
def isInteger (t : Text) : Bool :=
  match unsigned t with
  | ['0'] => true
  | '0' :: 'b' :: ds => !ds.isEmpty && ds.all fun c => c == '0' || c == '1' || c == '_'
  | '0' :: 'x' :: ds => !ds.isEmpty && ds.all fun c => (Text.hexDigit? c).isSome || c == '_'
  | '0' :: ds => ds.all fun c => ('0' ≤ c && c ≤ '7') || c == '_'
  | c :: ds =>
    c.isDigit && (ds.all isDigitOrBar || isSexagesimal (fun d => d != '0') (c :: ds))
  | [] => false

/-- Nothing, or an exponent with a sign. -/
def isExponent : Text → Bool
  | [] => true
  | e :: s :: ds => (e == 'e' || e == 'E') && (s == '+' || s == '-') && !ds.isEmpty && ds.all Char.isDigit
  | _ => false

/-- A number with a point: digits before it, or only after it. -/
def isPointed (t : Text) : Bool :=
  (match unsigned t with
    | c :: ds =>
      c.isDigit && match ds.dropWhile isDigitOrBar with
        | '.' :: r => isExponent (r.dropWhile isDigitOrBar)
        | _ => false
    | [] => false) ||
  (match t with
    | '.' :: c :: ds => c.isDigit && isExponent (ds.dropWhile isDigitOrBar)
    | _ => false)

/-- Numbers that are not whole: with a point, sexagesimal with a point, infinite
or not a number. -/
def isReal (t : Text) : Bool :=
  isPointed t ||
  (match (unsigned t).dropWhile (· != '.') with
    | '.' :: places =>
      places.all isDigitOrBar && isSexagesimal Char.isDigit ((unsigned t).takeWhile (· != '.'))
    | _ => false) ||
  [".inf".toList, ".Inf".toList, ".INF".toList].contains (unsigned t) ||
  [".nan".toList, ".NaN".toList, ".NAN".toList].contains t

/-- What follows `least` to `most` digits. -/
def afterDigits (least most : Nat) (t : Text) : Option Text :=
  let count := min most (t.takeWhile Char.isDigit).length
  if count < least then none else some (t.drop count)

/-- What follows the character `c`. -/
def afterChar (c : Char) : Text → Option Text
  | d :: t => if d = c then some t else none
  | [] => none

def isSpaceOrTab (c : Char) : Bool := c == ' ' || c == '\t'

/-- What follows the mark between date and time: a `T` or white space. -/
def afterDateMark : Text → Option Text
  | [] => none
  | c :: t =>
    if c = 'T' ∨ c = 't' then some t
    else if isSpaceOrTab c then some (t.dropWhile isSpaceOrTab)
    else none

/-- What follows a fraction of a second, if there is one. -/
def afterFraction : Text → Text
  | '.' :: t => t.dropWhile Char.isDigit
  | t => t

/-- Nothing, or a time zone with white space before it. -/
def isZone (t : Text) : Bool :=
  t.isEmpty ||
  match t.dropWhile isSpaceOrTab with
  | ['Z'] => true
  | c :: t =>
    (c == '+' || c == '-') && match afterDigits 1 2 t with
      | some [] => true
      | some (':' :: t) => afterDigits 2 2 t == some []
      | _ => false
  | [] => false

/-- A date with four, two and two digits. -/
def isDate (t : Text) : Bool :=
  (do
    let t ← afterDigits 4 4 t
    let t ← afterChar '-' t
    let t ← afterDigits 2 2 t
    let t ← afterChar '-' t
    afterDigits 2 2 t) == some []

/-- A date and a time. -/
def isDateTime (t : Text) : Bool :=
  ((do
    let t ← afterDigits 4 4 t
    let t ← afterChar '-' t
    let t ← afterDigits 1 2 t
    let t ← afterChar '-' t
    let t ← afterDigits 1 2 t
    let t ← afterDateMark t
    let t ← afterDigits 1 2 t
    let t ← afterChar ':' t
    let t ← afterDigits 2 2 t
    let t ← afterChar ':' t
    let t ← afterDigits 2 2 t
    return isZone (afterFraction t)) : Option Bool) == some true

/-- Whether a reader takes the unquoted text for something other than a string. -/
def isTyped (t : Text) : Bool :=
  t.isEmpty || words.contains t || isInteger t || isReal t || isDate t || isDateTime t

end Yaml
end ReverseDns
