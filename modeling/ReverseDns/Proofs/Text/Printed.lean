/-
# Printed text and the numbers in it

A text is printed if it has only printable ASCII characters and line ends, as
reports have in either form. Digits are printed, with a minus sign in front or
without. A number in a field of fixed width is read back from its hexadecimal
digits if it fits, in lower or in upper case.

Key definition: `Text.IsPrinted`.
Key theorems: `Text.hexNumber?_padded`, `Text.isVisible_decimal`.
-/
import Mathlib.Algebra.Group.Nat.Defs
import ReverseDns.Proofs.Address.Grouped

namespace ReverseDns
namespace Text

/-! ### Printed text -/

/-- A printable character of ASCII. -/
def IsVisible (c : Char) : Prop := ' ' ≤ c ∧ c ≤ '~'

instance (c : Char) : Decidable (IsVisible c) := inferInstanceAs (Decidable (_ ∧ _))

/-- Every character is printable ASCII or a line end. -/
def IsPrinted (t : Text) : Prop := ∀ c ∈ t, c = '\n' ∨ IsVisible c

instance (t : Text) : Decidable (IsPrinted t) := List.decidableBAll _ t

variable {s t : Text} {c : Char}

theorem isVisible_iff : IsVisible c ↔ 32 ≤ c.toNat ∧ c.toNat ≤ 126 := Iff.rfl

@[simp] theorem isPrinted_nil : IsPrinted [] := by simp [IsPrinted]

@[simp] theorem isPrinted_cons : IsPrinted (c :: t) ↔ (c = '\n' ∨ IsVisible c) ∧ IsPrinted t :=
  List.forall_mem_cons

@[simp] theorem isPrinted_append : IsPrinted (s ++ t) ↔ IsPrinted s ∧ IsPrinted t :=
  List.forall_mem_append

/-- The characters of a given text are looked at one by one. -/
theorem isVisible_of_all (h : (t.all fun c => ' ' ≤ c && c ≤ '~') = true) :
    ∀ c ∈ t, IsVisible c := by
  intro c hc
  have hvisible := List.all_eq_true.mp h c hc
  rw [Bool.and_eq_true, decide_eq_true_eq, decide_eq_true_eq] at hvisible
  exact hvisible

theorem IsPrinted.isAscii (h : IsPrinted t) : IsAscii t := by
  intro c hc
  rcases h c hc with rfl | hv
  · decide
  · have := (isVisible_iff.mp hv).2
    omega

/-! ### Digits -/

theorem isVisible_digitChar : ∀ n < 16, IsVisible (Nat.digitChar n) := by decide

theorem isVisible_toUpper_digitChar : ∀ n < 16, IsVisible (Nat.digitChar n).toUpper := by decide

theorem isVisible_of_isDigit (h : c.isDigit = true) : IsVisible c := by
  have hc := Char.isDigit_iff_toNat.mp h
  have h0 : '0'.toNat = 48 := rfl
  have h9 : '9'.toNat = 57 := rfl
  exact isVisible_iff.mpr (by omega)

/-- A field of fixed width has digits only. -/
theorem mem_padded {base : Nat} (hbase : 0 < base) : ∀ {width n : Nat}, c ∈ padded base width n →
    ∃ d < base, c = Nat.digitChar d
  | 0, _, h => by simp [padded] at h
  | width + 1, n, h => by
    rw [padded, List.mem_append, List.mem_singleton] at h
    rcases h with h | rfl
    · exact mem_padded hbase h
    · exact ⟨n % base, Nat.mod_lt n hbase, rfl⟩

theorem isVisible_padded {base width n : Nat} (h0 : 0 < base) (h16 : base ≤ 16) :
    ∀ c ∈ padded base width n, IsVisible c := by
  intro c hc
  obtain ⟨d, hd, rfl⟩ := mem_padded h0 hc
  exact isVisible_digitChar d (by omega)

/-! ### Hexadecimal numbers -/

theorem hexDigit?_toUpper_digitChar : ∀ n < 16, hexDigit? (Nat.digitChar n).toUpper = some n := by
  decide

/-- **A number in a field is read back from its digits**, in any spelling of the
digits that keeps their values. -/
theorem hexNumber?_padded {f : Char → Char}
    (hf : ∀ n < 16, hexDigit? (f (Nat.digitChar n)) = some n) : ∀ width n : Nat,
    hexNumber? ((padded 16 width n).map f) = some (n % 16 ^ width)
  | 0, n => by
    rw [Nat.pow_zero, Nat.mod_one]
    rfl
  | width + 1, n => by
    have ih := hexNumber?_padded hf width (n / 16)
    have hdigit := hf (n % 16) (Nat.mod_lt n (by omega))
    have hsplit : n / 16 % 16 ^ width * 16 + n % 16 = n % 16 ^ (width + 1) := by
      rw [Nat.pow_succ, Nat.mul_comm (16 ^ width) 16, Nat.mod_mul]
      omega
    rw [padded, List.map_append, List.map_singleton, Grouped.hexNumber?_concat, ih, hdigit,
      Option.bind_some, Option.bind_some, hsplit]

/-! ### Decimal numbers -/

theorem isDigit_of_mem_toDigits {n : Nat} (h : c ∈ Nat.toDigits 10 n) : c.isDigit = true :=
  Nat.isDigit_of_mem_toDigits (by omega) (by omega) h

/-- Digits begin with a digit. -/
theorem exists_toDigits (n : Nat) : ∃ d ds, Nat.toDigits 10 n = d :: ds ∧ d.isDigit = true := by
  obtain ⟨d, ds, hds⟩ := List.exists_cons_of_ne_nil (Nat.toDigits_ne_nil (b := 10) (n := n))
  refine ⟨d, ds, hds, isDigit_of_mem_toDigits (n := n) ?_⟩
  rw [hds]
  exact List.mem_cons_self

/-- A decimal text is digits, or a minus sign and digits. -/
theorem decimal_cases (n : Int) : (0 ≤ n ∧ decimal n = Nat.toDigits 10 n.natAbs) ∨
    (n < 0 ∧ decimal n = '-' :: Nat.toDigits 10 n.natAbs) := by
  unfold decimal
  by_cases h : n < 0
  · exact .inr ⟨h, if_pos h⟩
  · exact .inl ⟨by omega, if_neg h⟩

theorem mem_decimal {n : Int} (h : c ∈ decimal n) : c = '-' ∨ c.isDigit = true := by
  rcases decimal_cases n with ⟨-, hn⟩ | ⟨-, hn⟩
  · rw [hn] at h
    exact .inr (isDigit_of_mem_toDigits h)
  · rw [hn, List.mem_cons] at h
    exact h.imp_right isDigit_of_mem_toDigits

theorem isVisible_decimal (n : Int) : ∀ c ∈ decimal n, IsVisible c := by
  intro c hc
  rcases mem_decimal hc with rfl | hc
  · decide
  · exact isVisible_of_isDigit hc

theorem minus_ne_toDigits (n : Nat) (t : Text) : '-' :: t ≠ Nat.toDigits 10 n := by
  intro h
  have hmem : '-' ∈ Nat.toDigits 10 n := by
    rw [← h]
    exact List.mem_cons_self
  exact absurd (isDigit_of_mem_toDigits hmem) (by decide)

end Text
end ReverseDns
