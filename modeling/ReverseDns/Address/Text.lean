/-
# The text of an address

An address is written dotted or in groups, by its family, with `%` and the
scope after it if there is one; an IPv4-mapped address is written in groups.
Reading takes either form.

Key definitions: `Address.text`, `Address.read?`, `Address.isText`.
-/
import ReverseDns.Address
import ReverseDns.Address.Grouped

namespace ReverseDns
namespace Address

/-- The scope with the percent sign before it. -/
def scopeText : Option Text → Text
  | none => []
  | some s => '%' :: s

/-- The canonical text of an address. -/
def text (a : Address) : Text :=
  match a.family with
  | .v4 => Dotted.text a.bytes
  | .v6 => Grouped.text a.bytes ++ scopeText a.scope

/-- Cuts a text at its first percent sign. -/
def splitScope (t : Text) : Text × Option Text :=
  match t.dropWhile (· != '%') with
  | [] => (t, none)
  | _ :: scope => (t.takeWhile (· != '%'), some scope)

/-- Reads an address in groups, with or without a scope. -/
def readScoped? (t : Text) : Option Address := do
  let (body, scope) := splitScope t
  let bs ← Grouped.read? body
  ofScoped? bs scope

/-- Reads an address of either family. -/
def read? (t : Text) : Option Address :=
  match Dotted.read? t with
  | some bs => ofBytes? bs
  | none => readScoped? t

/-- Whether a text is an address. -/
def isText (t : Text) : Bool := (read? t).isSome

end Address
end ReverseDns
