/-
# Trimmed texts

Trimming takes the blank characters off both ends of a text and stops where
neither end is blank: what it leaves is the one trimmed text that stands in the
text between blank characters (`trimOf_eq_iff`). So nothing is left of a text
exactly if all of it is blank (`trimOf_eq_nil_iff`), and trimming a second time
takes nothing off (`trimOf_trimOf`).

Key definitions: `Text.AllBlank`, `Text.IsTrimmed`.
Key theorems: `Text.trimOf_eq_iff`, `Text.trimOf_eq_nil_iff`, `Text.trimOf_trimOf`.
-/
import ReverseDns.Text.Blank
import Mathlib.Data.List.DropRight

namespace ReverseDns
namespace Text

variable {blank : Char → Bool} {t w before after : Text}

/-- Every character is blank. -/
def AllBlank (blank : Char → Bool) (t : Text) : Prop := ∀ c ∈ t, blank c = true

/-- Neither the first character is blank nor the last. -/
structure IsTrimmed (blank : Char → Bool) (t : Text) : Prop where
  head : ∀ c ∈ t.head?, blank c = false
  last : ∀ c ∈ t.getLast?, blank c = false

theorem IsTrimmed.of_forall (h : ∀ c ∈ t, blank c = false) : IsTrimmed blank t where
  head c hc := h c (List.mem_of_head? hc)
  last c hc := h c (List.mem_of_getLast? hc)

theorem isTrimmed_nil : IsTrimmed blank [] := .of_forall (by simp)

/-! ### What trimming leaves -/

theorem head?_dropWhile (blank : Char → Bool) (t : Text) :
    ∀ c ∈ (t.dropWhile blank).head?, blank c = false := by
  intro c hc
  have h := List.head?_dropWhile_not blank t
  rw [Option.mem_def.mp hc] at h
  exact h

theorem isTrimmed_trimOf (blank : Char → Bool) (t : Text) : IsTrimmed blank (trimOf blank t) where
  head c hc := by
    -- What the end loses does not change how the rest begins.
    obtain ⟨rest, hrest⟩ : trimOf blank t <+: t.dropWhile blank :=
      List.rdropWhile_prefix blank (t.dropWhile blank)
    apply head?_dropWhile blank t
    rw [← hrest, List.head?_append, Option.mem_def.mp hc]
    rfl
  last c hc := by
    obtain ⟨hne, hlast⟩ := List.mem_getLast?_eq_getLast hc
    have h := List.rdropWhile_last_not blank (t.dropWhile blank) hne
    rw [hlast]
    exact Bool.eq_false_iff.mpr h

/-- What trimming takes off is blank. -/
theorem exists_eq_append_trimOf (blank : Char → Bool) (t : Text) : ∃ before after,
    t = before ++ trimOf blank t ++ after ∧ AllBlank blank before ∧ AllBlank blank after := by
  refine ⟨t.takeWhile blank, (t.dropWhile blank).rtakeWhile blank, ?_,
    fun c hc => List.mem_takeWhile_imp hc, fun c hc => List.mem_rtakeWhile_imp hc⟩
  calc t = t.takeWhile blank ++ t.dropWhile blank := List.takeWhile_append_dropWhile.symm
    _ = t.takeWhile blank ++ (trimOf blank t ++ (t.dropWhile blank).rtakeWhile blank) := by
      congr 1
      exact List.rdropWhile_append_rtakeWhile.symm
    _ = t.takeWhile blank ++ trimOf blank t ++ (t.dropWhile blank).rtakeWhile blank :=
      (List.append_assoc _ _ _).symm

/-! ### What stands between blank characters -/

theorem dropWhile_eq_self (h : ∀ c ∈ w.head?, blank c = false) : w.dropWhile blank = w := by
  cases w with
  | nil => rfl
  | cons c w => exact List.dropWhile_cons_of_neg (Bool.eq_false_iff.mp (h c rfl))

theorem AllBlank.reverse (h : AllBlank blank t) : AllBlank blank t.reverse :=
  fun c hc => h c (List.mem_reverse.mp hc)

theorem trimOf_append (hbefore : AllBlank blank before) (hw : IsTrimmed blank w)
    (hafter : AllBlank blank after) : trimOf blank (before ++ w ++ after) = w := by
  unfold trimOf
  rw [List.append_assoc, List.dropWhile_append_of_pos hbefore]
  by_cases hnil : w = []
  · subst hnil
    have hall : (([] : Text) ++ after).dropWhile blank = [] := List.dropWhile_eq_nil_iff.mpr hafter
    rw [hall]
    rfl
  · have hhead : ∀ c ∈ (w ++ after).head?, blank c = false := by
      rw [List.head?_append_of_ne_nil w hnil]
      exact hw.head
    have hlast : ∀ c ∈ w.reverse.head?, blank c = false := by
      rw [List.head?_reverse]
      exact hw.last
    rw [dropWhile_eq_self hhead, List.reverse_append,
      List.dropWhile_append_of_pos hafter.reverse, dropWhile_eq_self hlast, List.reverse_reverse]

/-- **Trimming finds the trimmed text between blank characters.** -/
theorem trimOf_eq_iff : trimOf blank t = w ↔ IsTrimmed blank w ∧
    ∃ before after, t = before ++ w ++ after ∧ AllBlank blank before ∧ AllBlank blank after := by
  constructor
  · rintro rfl
    exact ⟨isTrimmed_trimOf blank t, exists_eq_append_trimOf blank t⟩
  · rintro ⟨hw, before, after, rfl, hbefore, hafter⟩
    exact trimOf_append hbefore hw hafter

/-- Nothing is left of a text that is blank throughout, and only of such a text. -/
theorem trimOf_eq_nil_iff : trimOf blank t = [] ↔ AllBlank blank t := by
  constructor
  · intro h
    obtain ⟨before, after, ht, hbefore, hafter⟩ := exists_eq_append_trimOf blank t
    rw [h, List.append_nil] at ht
    intro c hc
    rw [ht] at hc
    rcases List.mem_append.mp hc with hc | hc
    · exact hbefore c hc
    · exact hafter c hc
  · intro h
    exact trimOf_eq_iff.mpr ⟨isTrimmed_nil, t, [], by simp, h, by simp [AllBlank]⟩

theorem trimOf_of_isTrimmed (h : IsTrimmed blank t) : trimOf blank t = t :=
  trimOf_eq_iff.mpr ⟨h, [], [], by simp, by simp [AllBlank], by simp [AllBlank]⟩

/-- A text without blank characters loses nothing when it is trimmed. -/
theorem trimOf_eq_self (h : ∀ c ∈ t, blank c = false) : trimOf blank t = t :=
  trimOf_of_isTrimmed (.of_forall h)

/-- **Trimming a second time takes nothing off.** -/
theorem trimOf_trimOf (blank : Char → Bool) (t : Text) :
    trimOf blank (trimOf blank t) = trimOf blank t :=
  trimOf_of_isTrimmed (isTrimmed_trimOf blank t)

end Text
end ReverseDns
