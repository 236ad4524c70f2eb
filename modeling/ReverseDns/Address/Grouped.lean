/-
# Addresses in hexadecimal groups

Eight groups of up to four hexadecimal digits with colons between them. Writing
drops leading zeros and puts `::` for the leftmost of the longest runs of two
or more zero groups. Reading takes `::` once for one or more zero groups, and a
dotted-decimal address for the last two groups.

Key definitions: `Grouped.text`, `Grouped.read?`, `Grouped.longestRun`.
-/
import ReverseDns.Address.Dotted

namespace ReverseDns
namespace Grouped

/-- The bytes two at a time as numbers, the first of each pair the higher. -/
def groups : List UInt8 → List Nat
  | high :: low :: rest => (high.toNat * 256 + low.toNat) :: groups rest
  | _ => []

/-- The bytes of groups below `2 ^ 16`. -/
def bytes (gs : List Nat) : List UInt8 :=
  gs.flatMap fun g => [UInt8.ofNat (g / 256), UInt8.ofNat (g % 256)]

/-- Start and length of the leftmost of the longest runs of zeros; length zero
when there is no zero. -/
def longestRun : List Nat → Nat × Nat
  | [] => (0, 0)
  | g :: gs =>
    let here := ((g :: gs).takeWhile (· == 0)).length
    let (start, length) := longestRun gs
    if length ≤ here then (0, here) else (start + 1, length)

/-- Groups in lower-case hexadecimal with colons between them. -/
def joined (gs : List Nat) : Text := Text.join [':'] (gs.map (Nat.toDigits 16))

/-- The text of an address given by its groups. -/
def compressed (gs : List Nat) : Text :=
  let (start, length) := longestRun gs
  if length < 2 then joined gs
  else joined (gs.take start) ++ ':' :: ':' :: joined (gs.drop (start + length))

/-- The canonical text of sixteen bytes. -/
def text (bs : List UInt8) : Text := compressed (groups bs)

/-- The parts of a text before and after its first `::`. -/
def splitElision : Text → Option (Text × Text)
  | [] => none
  | ':' :: ':' :: rest => some ([], rest)
  | c :: rest => (splitElision rest).map fun (high, low) => (c :: high, low)

/-- One group: one to four hexadecimal digits. -/
def readGroup? (t : Text) : Option Nat :=
  if t = [] ∨ 4 < t.length then none else Text.hexNumber? t

/-- Groups given by their texts; where `tail` is set the last may be a dotted
address, which makes two groups. -/
def readParts? (tail : Bool) : List Text → Option (List Nat)
  | [] => some []
  | [t] =>
    if tail && t.contains '.' then (Dotted.read? t).map groups
    else (readGroup? t).map ([·])
  | t :: ts => do
    let g ← readGroup? t
    let gs ← readParts? tail ts
    return g :: gs

/-- Groups with colons between them; the empty text has none. -/
def readGroups? (tail : Bool) (t : Text) : Option (List Nat) :=
  if t = [] then some [] else readParts? tail (t.splitOn ':')

/-- Reads sixteen bytes. -/
def read? (t : Text) : Option (List UInt8) :=
  match splitElision t with
  | some (high, low) => do
    let hs ← readGroups? false high
    let ls ← readGroups? true low
    if hs.length + ls.length ≤ 7 then
      return bytes (hs ++ List.replicate (8 - (hs.length + ls.length)) 0 ++ ls)
    else none
  | none => do
    let gs ← readGroups? true t
    if gs.length = 8 then return bytes gs else none

end Grouped
end ReverseDns
