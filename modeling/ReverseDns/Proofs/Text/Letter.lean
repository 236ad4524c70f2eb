/-
# Lower case and ASCII

Lower case of one character is `Char.toLower`, but for the two characters that
`lowerChar` treats by themselves. Neither of them can stand in a text whose
lower case is an ASCII word without `k`, so comparing such a word with the
lower case of a text is comparing it letter by letter (`lower_eq_iff`), and a
text that passes is ASCII itself (`isAscii_of_map_toLower`).

Key definition: `Text.IsAscii`.
Key theorems: `Text.lower_eq_iff`, `Text.isAscii_of_map_toLower`.
-/
import ReverseDns.Text.Letter

namespace ReverseDns
namespace Text

/-- Every character is below U+0080. -/
def IsAscii (t : Text) : Prop := ∀ c ∈ t, c.toNat < 128

/-- What holds of the first 128 characters one by one holds of an ASCII character. -/
theorem forall_ascii {P : Char → Prop} (h : ∀ n < 128, P (Char.ofNat n)) {c : Char}
    (hc : c.toNat < 128) : P c := by
  have := h c.toNat hc
  rwa [Char.ofNat_toNat] at this

theorem toNat_toLower (c : Char) :
    c.toLower.toNat = if 65 ≤ c.toNat ∧ c.toNat ≤ 90 then c.toNat + 32 else c.toNat := by
  unfold Char.toLower
  by_cases h : c.val ≥ 'A'.val ∧ c.val ≤ 'Z'.val
  · have h' : 65 ≤ c.toNat ∧ c.toNat ≤ 90 := h
    rw [dif_pos h, if_pos h']
    show (c.val + ('a'.val - 'A'.val)).toNat = c.toNat + 32
    rw [UInt32.toNat_add]
    have : ('a'.val - 'A'.val).toNat = 32 := rfl
    have : c.val.toNat = c.toNat := rfl
    omega
  · have h' : ¬ (65 ≤ c.toNat ∧ c.toNat ≤ 90) := h
    rw [dif_neg h, if_neg h']

theorem toNat_lt_of_toLower {c : Char} (h : c.toLower.toNat < 128) : c.toNat < 128 := by
  rw [toNat_toLower] at h
  split at h <;> omega

/-- Lower case does not change what is below the capitals. -/
theorem toLower_eq_of_toNat_lt {c : Char} (h : c.toNat < 65) : c.toLower = c := by
  apply Char.toNat_inj.mp
  rw [toNat_toLower, if_neg (by omega)]

theorem toLower_of_isDigit {c : Char} (h : c.isDigit = true) : c.toLower = c := by
  have hc : c.toNat ≤ 57 := (Char.isDigit_iff_toNat.mp h).2
  exact toLower_eq_of_toNat_lt (by omega)

theorem map_toLower_eq_self {t : Text} (h : ∀ c ∈ t, c.toLower = c) : t.map Char.toLower = t :=
  (List.map_congr_left h).trans (List.map_id t)

/-- A text whose letters give an ASCII text in lower case is ASCII. -/
theorem isAscii_of_map_toLower {t s : Text} (h : t.map Char.toLower = s) (hs : IsAscii s) :
    IsAscii t := by
  intro c hc
  apply toNat_lt_of_toLower
  exact hs _ (h ▸ List.mem_map_of_mem hc)

/-- What a lower-case character must be to have come from one character, by
`Char.toLower`: not the `k` of the Kelvin sign, not a combining dot. -/
def IsPlain (c : Char) : Prop := c ≠ 'k' ∧ c.toNat < 128

instance (c : Char) : Decidable (IsPlain c) := inferInstanceAs (Decidable (_ ∧ _))

/-- **Lower case against an ASCII word.** For a word without `k` it is the
comparison of the letters one by one. -/
theorem lower_eq_iff : ∀ {s t : Text}, (∀ c ∈ s, IsPlain c) → (lower t = s ↔ t.map Char.toLower = s)
  | s, [], _ => by simp [lower]
  | s, c :: t, hs => by
    have hlow : lower (c :: t) = lowerChar c ++ lower t := rfl
    rw [hlow, List.map_cons]
    unfold lowerChar
    split
    · rename_i hc
      subst hc
      have hk : ('\u212a' : Char).toLower = '\u212a' := by decide
      rw [hk]
      constructor <;> intro h <;> subst h
      · exact absurd rfl (hs 'k' (by simp)).1
      · exact absurd (hs '\u212a' (by simp)).2 (by decide)
    · split
      · rename_i hc
        subst hc
        have hi : ('\u0130' : Char).toLower = '\u0130' := by decide
        rw [hi]
        constructor <;> intro h <;> subst h
        · exact absurd (hs '\u0307' (by simp)).2 (by decide)
        · exact absurd (hs '\u0130' (by simp)).2 (by decide)
      · cases s with
        | nil => simp
        | cons d s =>
          have ih := lower_eq_iff (t := t) fun c hc => hs c (List.mem_cons_of_mem d hc)
          simp only [List.singleton_append, List.cons.injEq, ih]

end Text
end ReverseDns
