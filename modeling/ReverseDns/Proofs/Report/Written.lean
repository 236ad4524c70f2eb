/-
# When a report is written

An integer with more digits than are written is refused, and with it the report whose
duration it is, in either form (`Report.render_eq_ok_iff`). The milliseconds of a run are
the whole part of a double, which has no more than 1024 bits, so the report of a run is
not refused (`Clock.isShort_milliseconds`).

Key definition: `Binary64.wholeBits`.
Key theorems: `Integer.isShort_iff`, `Report.render_eq_ok_iff`,
`Binary64.natAbs_truncate_lt`, `Clock.isShort_milliseconds`.
-/
import Mathlib.Algebra.Group.Int.Defs
import Mathlib.Algebra.Group.Nat.Defs
import ReverseDns.Clock
import ReverseDns.Report

namespace ReverseDns

/-! ### Short integers -/

namespace Integer

variable {n : Int}

theorem isShort_eq_true_iff :
    isShort n = true ↔ (Nat.toDigits 10 n.natAbs).length ≤ maxDigits := decide_eq_true_iff

/-- An integer is short if it is below the first power of ten that is not. -/
theorem isShort_iff : isShort n = true ↔ n.natAbs < 10 ^ maxDigits :=
  isShort_eq_true_iff.trans (Nat.length_toDigits_le_iff (by decide) (by decide))

/-- A power of ten is too long as soon as its exponent is the most digits that are written. -/
theorem isShort_ten_pow_eq_false {k : Nat} (h : maxDigits ≤ k) : isShort (10 ^ k) = false := by
  rw [Bool.eq_false_iff]
  intro hshort
  have hlt : ((10 : Int) ^ k).natAbs < 10 ^ maxDigits := isShort_iff.mp hshort
  rw [Int.natAbs_pow] at hlt
  exact absurd hlt (Nat.not_lt.mpr (Nat.pow_le_pow_right (by decide) h))

section

variable {α : Type} {a b : α}

theorem check_bind_of_isShort (a : α) (h : isShort n = true) :
    (do check n; return a : Except Fault α) = .ok a := by
  unfold check
  rw [if_pos h]
  rfl

theorem check_bind_of_isShort_eq_false (a : α) (h : isShort n = false) :
    (do check n; return a : Except Fault α) = .error tooLong := by
  unfold check
  rw [h, if_neg Bool.false_ne_true]
  rfl

/-- What needs an integer to be written is there exactly if the integer is short. -/
theorem check_bind_eq_ok_iff :
    (do check n; return a : Except Fault α) = .ok b ↔ isShort n = true ∧ a = b := by
  cases h : isShort n with
  | false => simp [check_bind_of_isShort_eq_false a h]
  | true => simp [check_bind_of_isShort a h]

end

end Integer

/-! ### Reports -/

namespace Report

variable {r : Report} {f : Format} {t : Text}

theorem render_of_isShort (f : Format) (h : Integer.isShort r.durationMs = true) :
    r.render f = .ok (r.layout f) := Integer.check_bind_of_isShort _ h

/-- **A report is written unless its duration is too long.** -/
theorem render_eq_ok_iff :
    r.render f = .ok t ↔ Integer.isShort r.durationMs = true ∧ r.layout f = t :=
  Integer.check_bind_eq_ok_iff

/-- Not every report is written: a duration may have five thousand and one digits. -/
theorem exists_render_eq_error (now : Timestamp) (es : List Entry) (ptrEnabled : Bool) :
    ∃ durationMs, ∀ f : Format,
      ({ timestamp := now, durationMs, entries := es, ptrEnabled } : Report).render f =
        .error Integer.tooLong :=
  ⟨10 ^ 5000, fun _ => Integer.check_bind_of_isShort_eq_false _
    (Integer.isShort_ten_pow_eq_false (by decide))⟩

/-- Every form of a report is found by its name. -/
theorem renderAs_name (r : Report) (f : Format) : r.renderAs f.name = r.render f := by
  cases f <;> rfl

end Report

/-! ### The length of a time -/

namespace Binary64

/-- The bits that the whole part of a double can have: those of a mantissa, and as many more
as the largest exponent says. -/
def wholeBits : Nat := 53 + 971

variable {negative : Bool} {m k : Nat} {e n : Int} {b : UInt64}

theorem natAbs_truncate_finite_lt (hm : m < 2 ^ 53) (he : e ≤ k)
    (h : (finite negative m e).truncate? = some n) : n.natAbs < 2 ^ (53 + k) := by
  have hexponent : e.toNat ≤ k := by omega
  have hlt : m * 2 ^ e.toNat / 2 ^ (-e).toNat < 2 ^ (53 + k) :=
    calc m * 2 ^ e.toNat / 2 ^ (-e).toNat ≤ m * 2 ^ e.toNat := Nat.div_le_self _ _
      _ ≤ m * 2 ^ k := Nat.mul_le_mul_left m (Nat.pow_le_pow_right Nat.two_pos hexponent)
      _ < 2 ^ 53 * 2 ^ k := Nat.mul_lt_mul_of_pos_right hm (Nat.two_pow_pos k)
      _ = 2 ^ (53 + k) := (Nat.pow_add 2 53 k).symm
  obtain rfl := Option.some.inj h
  split
  · rw [Int.natAbs_neg, Int.natAbs_natCast]
    exact hlt
  · rw [Int.natAbs_natCast]
    exact hlt

/-- **The whole part of a double** has no more bits than that. -/
theorem natAbs_truncate_lt (h : (ofBits b).truncate? = some n) : n.natAbs < 2 ^ wholeBits := by
  have hfraction : b.toNat % fractions < 2 ^ 52 := Nat.mod_lt _ (by decide)
  have hbiased : b.toNat / fractions % exponents < 2 ^ 11 := Nat.mod_lt _ (by decide)
  unfold ofBits at h
  unfold wholeBits
  dsimp only at h
  split at h
  · split at h <;> simp [truncate?] at h
  · rename_i hfinite
    split at h
    · exact natAbs_truncate_finite_lt (k := 971) (by omega) (by decide) h
    · refine natAbs_truncate_finite_lt (k := 971) ?_ ?_ h
      · unfold fractions at hfraction ⊢
        omega
      · unfold exponents at hfinite hbiased ⊢
        omega

end Binary64

namespace Clock

variable {c : Clock} {ms : Int}

/-- **No run takes too long for its report.** -/
theorem isShort_milliseconds (h : c.milliseconds = .ok ms) : Integer.isShort ms = true := by
  unfold milliseconds at h
  dsimp only at h
  split at h
  · rename_i n hn
    obtain rfl := Except.ok.inj h
    refine Integer.isShort_iff.mpr ?_
    calc n.natAbs < 2 ^ Binary64.wholeBits := Binary64.natAbs_truncate_lt hn
      _ ≤ 10 ^ Binary64.wholeBits := Nat.pow_le_pow_left (by decide) _
      _ ≤ 10 ^ Integer.maxDigits := Nat.pow_le_pow_right (by decide) (by decide)
  · split at h <;> simp at h

end Clock
end ReverseDns
