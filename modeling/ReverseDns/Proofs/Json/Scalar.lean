/-
# White space, words and numbers of JSON are read

White space before a part of a value is skipped. A word is known by its first
letters; an integer is read back from its text, digits and at most a minus sign, if
what follows it is no part of a number (`readScalar_decimal`).

Key definitions: `Json.IsBlank`, `Json.Stops`.
Key theorems: `Json.readValue_append`, `Json.readScalar_decimal`.
-/
import ReverseDns.Json.Read
import ReverseDns.Proofs.Text.Printed

namespace ReverseDns
namespace Json

/-! ### White space -/

/-- White space between the parts of a value. -/
def IsBlank (c : Char) : Prop := (c == ' ' || c == '\t' || c == '\n' || c == '\r') = true

instance (c : Char) : Decidable (IsBlank c) := inferInstanceAs (Decidable (_ = true))

variable {c d : Char} {w cs rest : Text} {fuel indent : Nat}

theorem skipBlanks_append (h : ∀ c ∈ w, IsBlank c) : skipBlanks (w ++ cs) = skipBlanks cs := by
  unfold skipBlanks
  rw [List.dropWhile_append_of_pos h]

theorem skipBlanks_cons (h : ¬ IsBlank c) : skipBlanks (c :: cs) = c :: cs :=
  List.dropWhile_cons_of_neg h

/-- White space before a value is skipped. -/
theorem readValue_append (h : ∀ c ∈ w, IsBlank c) :
    readValue fuel (w ++ cs) = readValue fuel cs := by
  cases fuel with
  | zero => rfl
  | succ fuel => rw [readValue, readValue, skipBlanks_append h]

theorem readItems_append (h : ∀ c ∈ w, IsBlank c) :
    readItems fuel (w ++ cs) = readItems fuel cs := by
  cases fuel with
  | zero => rfl
  | succ fuel => rw [readItems, readItems, readValue_append h]

theorem readMembers_append (h : ∀ c ∈ w, IsBlank c) :
    readMembers fuel (w ++ cs) = readMembers fuel cs := by
  cases fuel with
  | zero => rfl
  | succ fuel => rw [readMembers, readMembers, skipBlanks_append h]

/-! ### Numbers and words -/

/-- A text that cannot go on with a number. -/
def Stops (rest : Text) : Prop :=
  ∀ c, rest.head? = some c → c.isDigit = false ∧ c ≠ '.' ∧ c ≠ 'e' ∧ c ≠ 'E'

theorem stops_nil : Stops [] := by
  intro c h
  simp at h

theorem stops_cons (h : c.isDigit = false ∧ c ≠ '.' ∧ c ≠ 'e' ∧ c ≠ 'E') (cs : Text) :
    Stops (c :: cs) := by
  intro d hd
  obtain rfl : c = d := by simpa using hd
  exact h

theorem stops_append (h : ∀ c ∈ w, IsBlank c) (hrest : Stops rest) : Stops (w ++ rest) := by
  cases w with
  | nil => exact hrest
  | cons c w =>
    have hc : IsBlank c := h c List.mem_cons_self
    unfold IsBlank at hc
    simp only [Bool.or_eq_true, beq_iff_eq] at hc
    refine stops_cons ?_ _
    rcases hc with ((rfl | rfl) | rfl) | rfl <;> decide

theorem isWhole_toDigits (n : Nat) : isWhole (Nat.toDigits 10 n) = true := by
  rcases Nat.eq_zero_or_pos n with rfl | hn
  · rfl
  · have hhead := Octet.head?_toDigits_ne_zero 10 (by decide) (by decide) n hn
    unfold isWhole
    split
    · rename_i h
      exact absurd h Nat.toDigits_ne_nil
    · rfl
    · rename_i h
      rw [h] at hhead
      simpa using hhead

/-- A whole number ends where no digit follows. -/
theorem readNumber_toDigits (negative : Bool) (n : Nat) (h : Stops rest) :
    readNumber negative (Nat.toDigits 10 n ++ rest) =
      some (.int (if negative then -(n : Int) else n), rest) := by
  have hdigits : ∀ c ∈ Nat.toDigits 10 n, c.isDigit = true := fun _ => Text.isDigit_of_mem_toDigits
  have htake : (Nat.toDigits 10 n ++ rest).takeWhile Char.isDigit = Nat.toDigits 10 n := by
    rw [List.takeWhile_append_of_pos hdigits]
    cases rest with
    | nil => simp
    | cons c rest => simp [(h c rfl).1]
  have hdrop : (Nat.toDigits 10 n ++ rest).dropWhile Char.isDigit = rest := by
    rw [List.dropWhile_append_of_pos hdigits]
    cases rest with
    | nil => rfl
    | cons c rest => simp [(h c rfl).1]
  have hvalue : Nat.ofDigitChars 10 (Nat.toDigits 10 n) 0 = n := Nat.ofDigitChars_ten_toDigits
  unfold readNumber
  simp only [htake, hdrop, isWhole_toDigits, Bool.not_true, Bool.false_eq_true, if_false]
  cases rest with
  | nil => simp [hvalue]
  | cons c rest =>
    obtain ⟨-, hpoint, he, hE⟩ := h c rfl
    have hno : ¬ (c = 'e' ∨ c = 'E') := not_or.mpr ⟨he, hE⟩
    simp [hpoint, hno, hvalue]

theorem after?_cons (h : c ≠ d) (w cs : Text) : after? (c :: w) (d :: cs) = none := by
  simp [after?, List.isPrefixOf, h]

/-- No word begins with a digit. -/
theorem readScalar_digit (hd : d.isDigit = true) (cs : Text) :
    readScalar (d :: cs) = readNumber false (d :: cs) := by
  have hne : ∀ c : Char, c.isDigit = false → c ≠ d := by
    rintro c hc rfl
    rw [hd] at hc
    simp at hc
  have hn := hne 'n' rfl
  have ht := hne 't' rfl
  have hf := hne 'f' rfl
  have hI := hne 'I' rfl
  have hminus := hne '-' rfl
  have hN := hne 'N' rfl
  have hwords : ∀ rest, '-' :: rest ≠ d :: cs := fun rest h => hminus (List.cons.inj h).1
  unfold readScalar
  simp [after?_cons, hn, ht, hf, hI, hminus, hN]
  split
  · rename_i h
    exact absurd h.symm (hwords _)
  · rfl

theorem readScalar_minus (hd : d.isDigit = true) (cs : Text) :
    readScalar ('-' :: d :: cs) = readNumber true (d :: cs) := by
  have hI : 'I' ≠ d := by
    rintro rfl
    simp at hd
  unfold readScalar
  simp [after?, hI]

/-- **An integer is read back from its text**, if what follows is no part of a number. -/
theorem readScalar_decimal (n : Int) (h : Stops rest) :
    readScalar (Text.decimal n ++ rest) = some (.int n, rest) := by
  obtain ⟨d, ds, hds, hd⟩ := Text.exists_toDigits n.natAbs
  rcases Text.decimal_cases n with ⟨hn, ht⟩ | ⟨hn, ht⟩
  · have hread := readNumber_toDigits false n.natAbs h
    have hvalue : ((n.natAbs : Nat) : Int) = n := by omega
    rw [hds, List.cons_append, ← readScalar_digit hd] at hread
    rw [ht, hds, List.cons_append, hread]
    simp [hvalue]
  · have hread := readNumber_toDigits true n.natAbs h
    have hvalue : -((n.natAbs : Nat) : Int) = n := by omega
    rw [hds, List.cons_append, ← readScalar_minus hd] at hread
    rw [ht, hds, List.cons_append, List.cons_append, hread]
    simp only [if_true, hvalue]

end Json
end ReverseDns
