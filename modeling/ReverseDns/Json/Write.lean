/-
# Writing JSON

Two layouts of one value. `compact` writes it on one line, `pretty` one member
or item a line, indented by two spaces a level. Both write ASCII only: every
other character is escaped by its UTF-16 code units, so no character of a text
can end a line.

Key definitions: `Json.quoted`, `Json.Value.compact`, `Json.Value.pretty`.
-/
import ReverseDns.Json.Number
import ReverseDns.Json.Value
import ReverseDns.Text.Quoted

namespace ReverseDns
namespace Json

/-- A code unit as `\u` and four lower-case hexadecimal digits. -/
def escapeUnit (n : Nat) : Text := '\\' :: 'u' :: Text.padded 16 4 n

/-- How one character is written in an ASCII string: as in a quoted message,
and DEL and everything outside ASCII as one or two code units. -/
def escape (c : Char) : Text :=
  if c.toNat < 0x7f then Text.escape c
  else if c.toNat < 0x10000 then escapeUnit c.toNat
  else escapeUnit (0xd800 + (c.toNat - 0x10000) / 0x400)
    ++ escapeUnit (0xdc00 + (c.toNat - 0x10000) % 0x400)

/-- A string in ASCII. -/
def quoted (t : Text) : Text := '"' :: (t.flatMap escape ++ ['"'])

namespace Value

/-- A value without parts. -/
def scalar : Value → Text
  | .null => "null".toList
  | .bool true => "true".toList
  | .bool false => "false".toList
  | .int n => Text.decimal n
  | .float x => number x
  | .str t => quoted t
  | .arr _ => ['[', ']']
  | .obj _ => ['{', '}']

mutual

/-- A value on one line, with a space after each comma and colon. -/
def compact : Value → Text
  | .arr (v :: vs) => '[' :: (compact v ++ compactItems vs)
  | .obj ((n, v) :: rest) => '{' :: (quoted n ++ ':' :: ' ' :: (compact v ++ compactMembers rest))
  | v => scalar v

/-- The items after the first, and the closing bracket. -/
def compactItems : List Value → Text
  | [] => [']']
  | v :: vs => ',' :: ' ' :: (compact v ++ compactItems vs)

/-- The members after the first, and the closing brace. -/
def compactMembers : Members → Text
  | [] => ['}']
  | (n, v) :: rest =>
    ',' :: ' ' :: (quoted n ++ ':' :: ' ' :: (compact v ++ compactMembers rest))

end

/-- A line end and the indentation of the next line. -/
def newline (indent : Nat) : Text := '\n' :: List.replicate indent ' '

mutual

/-- A value whose first line is indented by `indent`, one part a line. -/
def pretty (indent : Nat) : Value → Text
  | .arr (v :: vs) =>
    '[' :: (newline (indent + 2) ++ (pretty (indent + 2) v ++ prettyItems indent vs))
  | .obj ((n, v) :: rest) =>
    '{' :: (newline (indent + 2) ++ (quoted n ++ ':' :: ' '
      :: (pretty (indent + 2) v ++ prettyMembers indent rest)))
  | v => scalar v

/-- The items after the first, and the closing bracket on its own line. -/
def prettyItems (indent : Nat) : List Value → Text
  | [] => newline indent ++ [']']
  | v :: vs =>
    ',' :: (newline (indent + 2) ++ (pretty (indent + 2) v ++ prettyItems indent vs))

/-- The members after the first, and the closing brace on its own line. -/
def prettyMembers (indent : Nat) : Members → Text
  | [] => newline indent ++ ['}']
  | (n, v) :: rest =>
    ',' :: (newline (indent + 2) ++ (quoted n ++ ':' :: ' '
      :: (pretty (indent + 2) v ++ prettyMembers indent rest)))

end

end Value
end Json
end ReverseDns
