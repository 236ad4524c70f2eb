/-
# Reading JSON

A reader of JSON texts in any layout, with surrogate pairs joined and lone
surrogates refused. A member that is given twice keeps its first place and its
last value. A number with a fraction or an exponent is a double, any other an
integer of any size; `Infinity`, `-Infinity` and `NaN` are read as the doubles
they name.

Key definitions: `Json.read?`, `Json.readString`.
-/
import ReverseDns.Json.Value

namespace ReverseDns
namespace Json

/-- The character that a one-letter escape stands for. -/
def unescape? : Char → Option Char
  | '"' => some '"'
  | '\\' => some '\\'
  | '/' => some '/'
  | 'b' => some '\u0008'
  | 'f' => some '\u000c'
  | 'n' => some '\n'
  | 'r' => some '\r'
  | 't' => some '\t'
  | _ => none

/-- The code units and code points of a string up to its closing quote, and
what follows. -/
def readUnits : Text → Option (List Nat × Text)
  | '"' :: cs => some ([], cs)
  | '\\' :: 'u' :: a :: b :: c :: d :: cs => do
    let n ← Text.hexNumber? [a, b, c, d]
    let (ns, rest) ← readUnits cs
    return (n :: ns, rest)
  | '\\' :: c :: cs => do
    let c ← unescape? c
    let (ns, rest) ← readUnits cs
    return (c.toNat :: ns, rest)
  | c :: cs =>
    if c < ' ' then none
    else do
      let (ns, rest) ← readUnits cs
      return (c.toNat :: ns, rest)
  | [] => none

def isHighSurrogate (n : Nat) : Bool := 0xd800 ≤ n && n < 0xdc00

def isLowSurrogate (n : Nat) : Bool := 0xdc00 ≤ n && n < 0xe000

/-- The characters of code units and code points: a high surrogate with the
low one after it makes one character. -/
def ofUnits? : List Nat → Option Text
  | [] => some []
  | [n] => if isHighSurrogate n || isLowSurrogate n then none else some [Char.ofNat n]
  | h :: l :: rest =>
    if isHighSurrogate h then
      if isLowSurrogate l then
        (ofUnits? rest).map (Char.ofNat (0x10000 + (h - 0xd800) * 0x400 + (l - 0xdc00)) :: ·)
      else none
    else if isLowSurrogate h then none
    else (ofUnits? (l :: rest)).map (Char.ofNat h :: ·)

/-- Reads a string after its opening quote. -/
def readString (cs : Text) : Option (Text × Text) := do
  let (ns, rest) ← readUnits cs
  return (← ofUnits? ns, rest)

/-- Drops the white space of JSON. -/
def skipBlanks (cs : Text) : Text :=
  cs.dropWhile fun c => c == ' ' || c == '\t' || c == '\n' || c == '\r'

/-- The text after `word`, if the text begins with it. -/
def after? (word cs : Text) : Option Text :=
  if word.isPrefixOf cs then some (cs.drop word.length) else none

/-- Whether a whole part has no leading zero: a lone zero, or it begins with
another digit. -/
def isWhole (ds : Text) : Bool :=
  match ds with
  | [] => false
  | ['0'] => true
  | d :: _ => d != '0'

/-- The exponent after its letter: sign, digits, and what follows. -/
def readExponent (cs : Text) : Option (Int × Text) :=
  let (negative, cs) := match cs with
    | '-' :: cs => (true, cs)
    | '+' :: cs => (false, cs)
    | cs => (false, cs)
  let ds := cs.takeWhile Char.isDigit
  if ds = [] then none
  else
    let n : Int := Nat.ofDigitChars 10 ds 0
    some (if negative then -n else n, cs.dropWhile Char.isDigit)

/-- The double nearest to `± n · 10 ^ e`. -/
def scientific (negative : Bool) (n : Nat) (e : Int) : Binary64 :=
  let size := if e < 0 then Float.ofScientific n true e.natAbs else Float.ofScientific n false e.natAbs
  .ofFloat (if negative then -size else size)

/-- A number after its sign. -/
def readNumber (negative : Bool) (cs : Text) : Option (Value × Text) :=
  let whole := cs.takeWhile Char.isDigit
  let rest := cs.dropWhile Char.isDigit
  if !isWhole whole then none
  else
    let (places, rest) := match rest with
      | '.' :: r => if r.takeWhile Char.isDigit = [] then ([], rest)
        else (r.takeWhile Char.isDigit, r.dropWhile Char.isDigit)
      | r => ([], r)
    let exponent? := match rest with
      | c :: r => if c = 'e' ∨ c = 'E' then readExponent r else none
      | [] => none
    match exponent? with
    | some (e, rest) =>
      let n := Nat.ofDigitChars 10 (whole ++ places) 0
      some (.float (scientific negative n (e - places.length)), rest)
    | none =>
      if places = [] then
        let n : Int := Nat.ofDigitChars 10 whole 0
        some (.int (if negative then -n else n), rest)
      else
        let n := Nat.ofDigitChars 10 (whole ++ places) 0
        some (.float (scientific negative n (-(places.length : Int))), rest)

/-- A value that is a word or a number. -/
def readScalar (cs : Text) : Option (Value × Text) :=
  let words : List (Text × Value) :=
    [("null".toList, .null), ("true".toList, .bool true), ("false".toList, .bool false),
      ("Infinity".toList, .float (.infinite false)), ("-Infinity".toList, .float (.infinite true)),
      ("NaN".toList, .float .nan)]
  match words.findSome? fun (w, v) => (after? w cs).map fun rest => (v, rest) with
  | some r => some r
  | none =>
    match cs with
    | '-' :: cs => readNumber true cs
    | cs => readNumber false cs

mutual

/-- Reads a value; `fuel` bounds the number of steps. -/
def readValue : (fuel : Nat) → Text → Option (Value × Text)
  | 0, _ => none
  | fuel + 1, cs =>
    match skipBlanks cs with
    | '"' :: cs => (readString cs).map fun (t, rest) => (.str t, rest)
    | '[' :: cs =>
      match skipBlanks cs with
      | ']' :: rest => some (.arr [], rest)
      | cs => (readItems fuel cs).map fun (vs, rest) => (.arr vs, rest)
    | '{' :: cs =>
      match skipBlanks cs with
      | '}' :: rest => some (.obj [], rest)
      | cs => (readMembers fuel cs).map fun (ms, rest) =>
        (.obj (ms.foldl (fun acc m => put m.1 m.2 acc) []), rest)
    | cs => readScalar cs

/-- Reads items up to the closing bracket. -/
def readItems : (fuel : Nat) → Text → Option (List Value × Text)
  | 0, _ => none
  | fuel + 1, cs =>
    match readValue fuel cs with
    | none => none
    | some (v, rest) =>
      match skipBlanks rest with
      | ',' :: rest => (readItems fuel rest).map fun (vs, rest) => (v :: vs, rest)
      | ']' :: rest => some ([v], rest)
      | _ => none

/-- Reads members up to the closing brace. -/
def readMembers : (fuel : Nat) → Text → Option (Members × Text)
  | 0, _ => none
  | fuel + 1, cs =>
    match skipBlanks cs with
    | '"' :: cs =>
      match readString cs with
      | none => none
      | some (n, rest) =>
        match skipBlanks rest with
        | ':' :: rest =>
          match readValue fuel rest with
          | none => none
          | some (v, rest) =>
            match skipBlanks rest with
            | ',' :: rest => (readMembers fuel rest).map fun (ms, rest) => ((n, v) :: ms, rest)
            | '}' :: rest => some ([(n, v)], rest)
            | _ => none
        | _ => none
    | _ => none

end

/-- Reads a whole text as one value, white space around it allowed. Every step
but the opening ones consumes a character, so twice the length bounds them. -/
def read? (cs : Text) : Option Value :=
  match readValue (2 * cs.length + 2) cs with
  | some (v, rest) => if skipBlanks rest = [] then some v else none
  | none => none

end Json
end ReverseDns
