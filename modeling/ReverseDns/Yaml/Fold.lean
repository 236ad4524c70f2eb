/-
# Writing a string over several lines

A line that has grown past 80 columns is broken at the next single space
between two words, which the line end then stands for. A line end of the string
itself is written as an empty line. Between double quotes a broken line ends in
a backslash, and a space that comes first on the next line gets one in front.

Key definitions: `Yaml.folded`, `Yaml.escaped`, `Yaml.string`.
-/
import ReverseDns.Yaml.Style

namespace ReverseDns
namespace Yaml

/-- The column past which a line is broken. -/
def width : Nat := 80

def spaces (n : Nat) : Text := List.replicate n ' '

/-- Whether there is a neighbouring character and it is no space. -/
def isWordChar : Option Char → Bool
  | some c => c != ' '
  | none => false

/-- Plain or single-quoted text from `column` on, the next lines indented by
`indent`. `previous` is the character before, and `apostrophe` how an apostrophe
is written. -/
def folded (apostrophe : Text) (indent column : Nat) (previous : Option Char) : Text → Text
  | [] => []
  | c :: rest =>
    if c = ' ' then
      if width < column ∧ isWordChar previous ∧ isWordChar rest.head? then
        '\n' :: (spaces indent ++ folded apostrophe indent indent (some ' ') rest)
      else ' ' :: folded apostrophe indent (column + 1) (some ' ') rest
    else if c = '\n' then
      (if previous = some '\n' then ['\n'] else ['\n', '\n']) ++
        if rest.head? = some '\n' then folded apostrophe indent column (some '\n') rest
        else spaces indent ++ folded apostrophe indent indent (some '\n') rest
    else if c = '\'' then
      apostrophe ++ folded apostrophe indent (column + apostrophe.length) (some c) rest
    else c :: folded apostrophe indent (column + 1) (some c) rest

/-- Upper-case hexadecimal digits in a field of fixed width. -/
def upperHex (width n : Nat) : Text := (Text.padded 16 width n).map Char.toUpper

/-- How a character is escaped between double quotes; `none` if it need not be. -/
def escape? (c : Char) : Option Text :=
  if c = '"' ∨ c = '\\' then some ['\\', c]
  else if isAsciiPrintable c then none
  else some <| '\\' ::
    match c with
    | '\x00' => ['0']
    | '\x07' => ['a']
    | '\x08' => ['b']
    | '\t' => ['t']
    | '\n' => ['n']
    | '\x0b' => ['v']
    | '\x0c' => ['f']
    | '\r' => ['r']
    | '\x1b' => ['e']
    | '\u0085' => ['N']
    | '\u00a0' => ['_']
    | '\u2028' => ['L']
    | '\u2029' => ['P']
    | c =>
      if c.toNat ≤ 0xff then 'x' :: upperHex 2 c.toNat
      else if c.toNat ≤ 0xffff then 'u' :: upperHex 4 c.toNat
      else 'U' :: upperHex 8 c.toNat

/-- The end of a broken line between double quotes, and the beginning of the
next one, which goes on with `next`. -/
def broken (indent : Nat) (next : Option Char) : Text :=
  '\\' :: '\n' :: (spaces indent ++ if next = some ' ' then ['\\'] else [])

/-- The column after `broken`. -/
def brokenColumn (indent : Nat) (next : Option Char) : Nat :=
  indent + if next = some ' ' then 1 else 0

/-- Double-quoted text from `column` on. A line may be broken before a space,
before a character that follows an escape, and after an escape, but neither
around the first character (`first`) nor around the last. -/
def escaped (indent column : Nat) (first afterEscape : Bool) : Text → Text
  | [] => []
  | c :: rest =>
    match escape? c with
    | none =>
      if !first ∧ rest ≠ [] ∧ (c = ' ' ∨ afterEscape) ∧ width < column then
        broken indent (some c) ++
          c :: escaped indent (brokenColumn indent (some c) + 1) false false rest
      else c :: escaped indent (column + 1) false false rest
    | some e =>
      if !first ∧ rest ≠ [] ∧ width < column + e.length - 1 then
        e ++ (broken indent rest.head? ++
          escaped indent (brokenColumn indent rest.head?) false true rest)
      else e ++ escaped indent (column + e.length) false true rest

/-- A string after a key or a dash that ends at `column`, with the space before
it. -/
def string (indent column : Nat) (t : Text) : Text :=
  match style t with
  | .plain => ' ' :: folded ['\''] indent (column + 1) none t
  | .singleQuoted =>
    ' ' :: '\'' :: (folded ['\'', '\''] indent (column + 2) none t ++ ['\''])
  | .doubleQuoted => ' ' :: '"' :: (escaped indent (column + 2) true false t ++ ['"'])

end Yaml
end ReverseDns
