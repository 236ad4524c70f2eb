/-
# Octets and nibbles are read as they are written

A decimal number from 0 to 255 without leading zeros is the text of one octet
and of no other (`isDecimal_iff`), and `Octet.read?` reads exactly those
(`read?_eq_some_iff`). A hexadecimal digit of either case is, in lower case,
the digit of its value (`hexDigit?_eq_some_iff`). Bytes and their nibbles
determine each other (`ofNibbles_nibbles`, `nibbles_ofNibbles`).

Key definition: `Octet.IsDecimal`.
Key theorems: `Octet.isDecimal_iff`, `Octet.read?_eq_some_iff`,
`Text.hexDigit?_eq_some_iff`, `Bytes.ofNibbles_nibbles`, `Bytes.nibbles_ofNibbles`.
-/
import ReverseDns.Octet
import ReverseDns.Proofs.Text.Letter
import ReverseDns.Proofs.Text.Words
import Mathlib.Data.List.Basic
import Mathlib.Data.List.Induction

namespace ReverseDns

/-! ### Decimal numbers -/

namespace Octet

/-- A decimal number from 0 to 255: ASCII digits, no leading zero. -/
structure IsDecimal (t : Text) (b : UInt8) : Prop where
  ne_nil : t ≠ []
  digits : ∀ c ∈ t, '0' ≤ c ∧ c ≤ '9'
  leading : 1 < t.length → t.head? ≠ some '0'
  value : Nat.ofDigitChars 10 t 0 = b.toNat

theorem isDigit_iff {c : Char} : c.isDigit = true ↔ '0' ≤ c ∧ c ≤ '9' :=
  Char.isDigit_iff_toNat

theorem digitChar_of_isDigit {c : Char} (h : c.isDigit = true) :
    Nat.digitChar (c.toNat - 48) = c ∧ c.toNat - 48 < 10 := by
  have hc : 48 ≤ c.toNat ∧ c.toNat ≤ 57 := Char.isDigit_iff_toNat.mp h
  refine ⟨?_, by omega⟩
  apply Char.toNat_inj.mp
  rw [Nat.toNat_digitChar_of_lt_ten (by omega)]
  omega

theorem ofDigitChars_concat (t : Text) (c : Char) :
    Nat.ofDigitChars 10 (t ++ [c]) 0 = 10 * Nat.ofDigitChars 10 t 0 + (c.toNat - 48) := by
  rw [Nat.ofDigitChars_append, Nat.ofDigitChars_cons, Nat.ofDigitChars_nil]
  rfl

/-- Digits without a leading zero are the decimal text of their number. -/
theorem toDigits_ofDigitChars : ∀ {t : Text}, t ≠ [] → (∀ c ∈ t, c.isDigit = true) →
    (1 < t.length → t.head? ≠ some '0') → Nat.toDigits 10 (Nat.ofDigitChars 10 t 0) = t := by
  intro t
  induction t using List.reverseRecOn with
  | nil => intro h; exact absurd rfl h
  | append_singleton t c ih =>
    intro _ hd hz
    obtain ⟨hc, hlt⟩ := digitChar_of_isDigit (hd c (by simp))
    rw [ofDigitChars_concat]
    by_cases hnil : t = []
    · subst hnil
      rw [Nat.ofDigitChars_nil, Nat.mul_zero, Nat.zero_add, Nat.toDigits_of_lt_base hlt, hc]
      rfl
    · have hhead : t.head? ≠ some '0' := by
        have h := hz (by have := List.length_pos_iff.mpr hnil; simp; omega)
        rwa [List.head?_append_of_ne_nil _ hnil] at h
      have ht := ih hnil (fun d hd' => hd d (List.mem_append_left _ hd')) fun _ => hhead
      -- The number of the digits before the last is not zero: its text is not "0".
      have hpos : 0 < Nat.ofDigitChars 10 t 0 := by
        rcases Nat.eq_zero_or_pos (Nat.ofDigitChars 10 t 0) with h0 | h0
        · rw [h0, Nat.toDigits_zero] at ht
          exact absurd (by rw [← ht]; rfl) hhead
        · exact h0
      rw [← Nat.toDigits_append_toDigits (by omega) hpos hlt, ht, Nat.toDigits_of_lt_base hlt, hc]

theorem digits_text (b : UInt8) : ∀ c ∈ text b, c.isDigit = true :=
  fun _ hc => Nat.isDigit_of_mem_toDigits (by omega) (by omega) hc

theorem text_ne_nil (b : UInt8) : text b ≠ [] := Nat.toDigits_ne_nil

theorem length_text_le (b : UInt8) : (text b).length ≤ 3 := by
  have := b.toNat_lt
  exact (Nat.length_toDigits_le_iff (by omega) (by omega)).mpr (by omega)

/-- Only the number zero is written with a zero in front, in whatever base. -/
theorem head?_toDigits_ne_zero (base : Nat) (h1 : 1 < base) (h16 : base ≤ 16) :
    ∀ n : Nat, 0 < n → (Nat.toDigits base n).head? ≠ some '0' := by
  intro n
  induction n using Nat.strongRecOn with
  | ind n ih =>
    intro hn
    by_cases h : n < base
    · have hdigit : ∀ d < 16, 0 < d → Nat.digitChar d ≠ '0' := by decide
      rw [Nat.toDigits_of_lt_base h]
      simpa using hdigit n (by omega) hn
    · rw [Nat.toDigits_of_base_le h1 (by omega),
        List.head?_append_of_ne_nil _ Nat.toDigits_ne_nil]
      exact ih (n / base) (Nat.div_lt_self hn h1) (Nat.div_pos (by omega) (by omega))

theorem isDecimal_text (b : UInt8) : IsDecimal (text b) b where
  ne_nil := text_ne_nil b
  digits c hc := isDigit_iff.mp (digits_text b c hc)
  leading hlen := by
    apply head?_toDigits_ne_zero 10 (by decide) (by decide)
    rcases Nat.eq_zero_or_pos b.toNat with h | h
    · rw [text, h, Nat.toDigits_zero] at hlen
      simp at hlen
    · exact h
  value := Nat.ofDigitChars_ten_toDigits

/-- **One text for each octet.** -/
theorem isDecimal_iff {t : Text} {b : UInt8} : IsDecimal t b ↔ t = text b := by
  constructor
  · intro h
    have ht := toDigits_ofDigitChars h.ne_nil (fun c hc => isDigit_iff.mpr (h.digits c hc)) h.leading
    rw [h.value] at ht
    exact ht.symm
  · rintro rfl
    exact isDecimal_text b

theorem read?_eq_some_iff {t : Text} {b : UInt8} : read? t = some b ↔ IsDecimal t b := by
  refine ⟨fun h => ?_, fun h => ?_⟩
  · unfold read? at h
    split at h
    · simp at h
    · rename_i hg
      simp only [Bool.not_eq_eq_eq_not, Bool.not_true, not_or, List.all_eq_false, not_exists,
        not_and, Classical.not_not, Nat.not_lt] at hg
      obtain ⟨hne, hd, -, hz⟩ := hg
      split at h
      · rename_i hle
        refine ⟨hne, fun c hc => isDigit_iff.mp (hd c hc), fun hl => hz hl, ?_⟩
        rw [← Option.some.inj h, UInt8.toNat_ofNat_of_lt' (Nat.lt_succ_of_le hle)]
      · simp at h
  · have ht := isDecimal_iff.mp h
    have hb := b.toNat_lt
    have hd : t.all Char.isDigit = true := by
      rw [ht]
      exact List.all_eq_true.mpr (digits_text b)
    have hl : ¬ 3 < t.length := by
      have := length_text_le b
      rw [ht]
      omega
    unfold read?
    rw [if_neg, if_pos (by rw [h.value]; omega), h.value, UInt8.ofNat_toNat]
    rintro (h' | h' | h' | h')
    · exact h.ne_nil h'
    · rw [hd] at h'
      simp at h'
    · exact hl h'
    · exact h.leading h'.1 h'.2

/-! ### Octets with dots between them -/

theorem not_mem_text (b : UInt8) {c : Char} (h : c.isDigit = false) : c ∉ text b := by
  intro hc
  rw [digits_text b c hc] at h
  simp at h

theorem splitOn_join_text {bs : List UInt8} (h : bs ≠ []) :
    (Text.join ['.'] (bs.map text)).splitOn '.' = bs.map text := by
  apply Text.splitOn_join
  · intro w hw
    obtain ⟨b, -, rfl⟩ := List.mem_map.mp hw
    exact not_mem_text b (by decide)
  · simpa using h

theorem map_read?_eq_iff : ∀ {ts : List Text} {bs : List UInt8},
    ts.map read? = bs.map some ↔ ts = bs.map text
  | [], [] => by simp
  | [], _ :: _ => by simp
  | _ :: _, [] => by simp
  | t :: ts, b :: bs => by
    simp only [List.map_cons, List.cons.injEq, read?_eq_some_iff, isDecimal_iff,
      @map_read?_eq_iff ts bs]

end Octet

/-! ### Hexadecimal digits -/

namespace Text

theorem hexDigit?_digitChar : ∀ n < 16, hexDigit? (Nat.digitChar n) = some n := by decide

theorem ne_digitChar {c : Char} (h : hexDigit? c = none) {n : Nat} (hn : n < 16) :
    c ≠ Nat.digitChar n := by
  rintro rfl
  rw [hexDigit?_digitChar n hn] at h
  simp at h

theorem toNat_digitChar_lt : ∀ n < 16, (Nat.digitChar n).toNat < 128 := by decide

theorem toNat_lt_of_hexDigit? {c : Char} {n : Nat} (h : hexDigit? c = some n) : c.toNat < 128 := by
  unfold hexDigit? at h
  split at h
  · rename_i hc
    have : c.toNat ≤ 57 := hc.2
    omega
  · split at h
    · rename_i hc
      have : c.toNat ≤ 102 := hc.2
      omega
    · split at h
      · rename_i hc
        have : c.toNat ≤ 70 := hc.2
        omega
      · simp at h

/-- A hexadecimal digit is, in lower case, the digit of its value. -/
theorem hexDigit?_eq_some_iff {c : Char} {n : Nat} :
    hexDigit? c = some n ↔ n < 16 ∧ c.toLower = Nat.digitChar n := by
  refine ⟨fun h => ?_, fun h => ?_⟩
  · exact forall_ascii (P := fun c => ∀ n ∈ hexDigit? c, n < 16 ∧ c.toLower = Nat.digitChar n)
      (by decide) (toNat_lt_of_hexDigit? h) n h
  · obtain ⟨hn, hc⟩ := h
    have hascii : c.toNat < 128 := by
      apply toNat_lt_of_toLower
      rw [hc]
      exact toNat_digitChar_lt n hn
    exact forall_ascii (P := fun c => ∀ n < 16, c.toLower = Nat.digitChar n → hexDigit? c = some n)
      (by decide) hascii n hn hc

end Text

/-! ### Nibbles -/

namespace Bytes

@[simp] theorem nibbles_nil : nibbles [] = [] := rfl

@[simp] theorem nibbles_cons (b : UInt8) (bs : List UInt8) :
    nibbles (b :: bs) = b.toNat / 16 :: b.toNat % 16 :: nibbles bs := rfl

theorem length_nibbles : ∀ bs : List UInt8, (nibbles bs).length = 2 * bs.length
  | [] => rfl
  | b :: bs => by
    rw [nibbles_cons, List.length_cons, List.length_cons, length_nibbles bs, List.length_cons]
    omega

theorem nibbles_lt : ∀ bs : List UInt8, ∀ n ∈ nibbles bs, n < 16
  | [], n, h => by simp at h
  | b :: bs, n, h => by
    have hb := b.toNat_lt
    rw [nibbles_cons] at h
    rcases List.mem_cons.mp h with rfl | h
    · omega
    · rcases List.mem_cons.mp h with rfl | h
      · omega
      · exact nibbles_lt bs n h

/-- The nibbles of bytes give the bytes back. -/
theorem ofNibbles_nibbles : ∀ bs : List UInt8, ofNibbles (nibbles bs) = bs
  | [] => rfl
  | b :: bs => by
    have hb : b.toNat / 16 * 16 + b.toNat % 16 = b.toNat := by omega
    rw [nibbles_cons, ofNibbles, ofNibbles_nibbles bs, hb, UInt8.ofNat_toNat]

/-- An even number of nibbles is what its bytes are made of. -/
theorem nibbles_ofNibbles : ∀ {ns : List Nat} {k : Nat}, ns.length = 2 * k → (∀ n ∈ ns, n < 16) →
    nibbles (ofNibbles ns) = ns ∧ (ofNibbles ns).length = k
  | [], k, hl, _ => ⟨rfl, by simp [ofNibbles] at hl ⊢; omega⟩
  | [n], k, hl, _ => by simp at hl; omega
  | high :: low :: ns, k, hl, h => by
    cases k with
    | zero => simp at hl
    | succ k =>
      have ih := nibbles_ofNibbles (k := k) (by simp at hl; omega)
        fun n hn => h n (List.mem_cons_of_mem _ (List.mem_cons_of_mem _ hn))
      have hhigh := h high (by simp)
      have hlow := h low (by simp)
      have hb : (UInt8.ofNat (high * 16 + low)).toNat = high * 16 + low :=
        UInt8.toNat_ofNat_of_lt' (show high * 16 + low < 256 by omega)
      refine ⟨?_, by rw [ofNibbles, List.length_cons, ih.2]⟩
      rw [ofNibbles, nibbles_cons, hb, ih.1]
      congr 1
      · omega
      · congr 1
        omega

end Bytes
end ReverseDns
