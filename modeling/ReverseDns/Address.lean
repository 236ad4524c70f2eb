/-
# Addresses

An address is four bytes or sixteen in network order; a sixteen-byte one may
carry a scope, the name of the interface it is meant on, which is no part of
the bytes. The two families have different sizes, so the bytes alone fix the
family.

Key definitions: `Family`, `Address`, `Address.ofBytes?`.
-/
import ReverseDns.Text

namespace ReverseDns

/-- The two families of addresses. -/
inductive Family
  | v4
  | v6
deriving DecidableEq, Repr

/-- How many bytes an address of the family has. -/
def Family.size : Family → Nat
  | .v4 => 4
  | .v6 => 16

/-- The version number of the family. -/
def Family.version : Family → Nat
  | .v4 => 4
  | .v6 => 6

/-- A scope is not empty and has neither a percent sign nor a slash in it. -/
def IsScope (t : Text) : Prop := t ≠ [] ∧ '%' ∉ t ∧ '/' ∉ t

instance (t : Text) : Decidable (IsScope t) := inferInstanceAs (Decidable (_ ∧ _ ∧ _))

/-- An address, with a scope if it is of the sixteen-byte family and has one. -/
structure Address where
  family : Family
  bytes : List UInt8
  scope : Option Text
  length_bytes : bytes.length = family.size
  scope_ok : ∀ s ∈ scope, family = .v6 ∧ IsScope s
deriving DecidableEq

namespace Address

/-- The address without a scope that has the given bytes. -/
def ofBytes? (bs : List UInt8) : Option Address :=
  if h : bs.length = 4 then some ⟨.v4, bs, none, h, by simp⟩
  else if h : bs.length = 16 then some ⟨.v6, bs, none, h, by simp⟩
  else none

/-- The sixteen-byte address with the given bytes and scope. -/
def ofScoped? (bs : List UInt8) (scope : Option Text) : Option Address :=
  if h : bs.length = 16 ∧ ∀ s ∈ scope, IsScope s then
    some ⟨.v6, bs, scope, h.1, fun s hs => ⟨rfl, h.2 s hs⟩⟩
  else none

end Address
end ReverseDns
