/-
# The integers of settings

An integer is white space, a sign or none, a numeral and white space again. A
numeral is groups of decimal digits, of whatever script, with one underscore
between neighbouring groups, and it denotes the number that its digits have in
base ten, leading zeros or not. Reading accepts exactly the integers with at most
4300 digits and gives the number that they denote (`Integer.read?_eq_some_iff`).

Key definitions: `Text.IsDecimalDigit`, `Integer.IsNumeral`, `Integer.IsInteger`.
Key theorems: `Text.decimalDigit?_eq_some_iff`, `Integer.digits?_eq_some_iff`,
`Integer.read?_eq_some_iff`.
-/
import ReverseDns.Config.Integer
import ReverseDns.Proofs.Text.Trim
import ReverseDns.Proofs.Text.Words
import Mathlib.Data.List.Forall2
import Mathlib.Data.List.Induction
import Mathlib.Data.Nat.Digits.Defs

namespace ReverseDns

/-! ### Decimal digits -/

namespace Text

variable {c : Char} {d : Nat}

/-- A character is the decimal digit of a number in some script: it stands that
many places behind the script's zero. -/
def IsDecimalDigit (c : Char) (d : Nat) : Prop := d < 10 ∧ ∃ z ∈ digitZeros, c.toNat = z + d

/-- The digits of one script end before those of the next begin. -/
theorem pairwise_digitZeros : digitZeros.Pairwise fun z next => z + 10 ≤ next := by decide

/-- In rows of ten that do not overlap, the row of a number is the one found. -/
theorem find?_row {z n : Nat} : ∀ {zs : List Nat}, zs.Pairwise (fun z next => z + 10 ≤ next) →
    z ∈ zs → z ≤ n → n < z + 10 → (zs.find? fun z => z ≤ n && n < z + 10) = some z
  | first :: zs, hrows, hmem, hle, hlt => by
    obtain ⟨hfirst, hrows⟩ := List.pairwise_cons.mp hrows
    rcases List.mem_cons.mp hmem with rfl | hmem
    · exact List.find?_cons_of_pos (by simp [hle, hlt])
    · have hbehind : first + 10 ≤ z := hfirst z hmem
      have hno : (decide (first ≤ n) && decide (n < first + 10)) = false := by
        have hpast : ¬ n < first + 10 := by omega
        rw [decide_eq_false hpast, Bool.and_false]
      simp only [List.find?_cons, hno]
      exact find?_row hrows hmem hle hlt

theorem decimalDigit?_eq_some_iff : decimalDigit? c = some d ↔ IsDecimalDigit c d := by
  constructor
  · intro h
    obtain ⟨z, hfind, rfl⟩ := Option.map_eq_some_iff.mp h
    have hrow := List.find?_some hfind
    simp only [Bool.and_eq_true, decide_eq_true_eq] at hrow
    exact ⟨by omega, z, List.mem_of_find?_eq_some hfind, by omega⟩
  · rintro ⟨hd, z, hz, hc⟩
    have hle : z ≤ c.toNat := by omega
    have hlt : c.toNat < z + 10 := by omega
    exact Option.map_eq_some_iff.mpr ⟨z, find?_row pairwise_digitZeros hz hle hlt, by omega⟩

/-- No digit is white space. -/
theorem isNumeralBlank_of_digit (h : IsDecimalDigit c d) : isNumeralBlank c = false := by
  have hall : ∀ z ∈ digitZeros, ∀ d < 10, isNumeralBlank (Char.ofNat (z + d)) = false := by
    decide +kernel
  obtain ⟨hd, z, hz, hc⟩ := h
  rw [← Char.ofNat_toNat c, hc]
  exact hall z hz d hd

theorem not_isDecimalDigit (h : decimalDigit? c = none) : ¬ IsDecimalDigit c d := by
  intro hd
  rw [decimalDigit?_eq_some_iff.mpr hd] at h
  simp at h

end Text

namespace Integer

variable {c c' : Char} {t : Text} {d : Nat} {ds : List Nat}

/-! ### Numerals -/

/-- Groups of decimal digits with one underscore between neighbours. -/
def IsNumeral (t : Text) (ds : List Nat) : Prop :=
  ∃ groups : List Text, groups ≠ [] ∧ (∀ g ∈ groups, g ≠ []) ∧ t = Text.join ['_'] groups ∧
    List.Forall₂ Text.IsDecimalDigit groups.flatten ds

theorem ne_underscore (h : Text.IsDecimalDigit c d) : c ≠ '_' := by
  rintro rfl
  exact Text.not_isDecimalDigit (by decide) h

theorem IsNumeral.single (h : Text.IsDecimalDigit c d) : IsNumeral [c] [d] :=
  ⟨[[c]], by simp, by simp, by simp, .cons h .nil⟩

/-- A digit before an underscore is a group of its own. -/
theorem IsNumeral.apart (h : Text.IsDecimalDigit c d) (ht : IsNumeral t ds) :
    IsNumeral (c :: '_' :: t) (d :: ds) := by
  obtain ⟨groups, hne, hgroups, rfl, hdigits⟩ := ht
  obtain ⟨g, gs, rfl⟩ := List.exists_cons_of_ne_nil hne
  refine ⟨[c] :: g :: gs, by simp, ?_, ?_, .cons h hdigits⟩
  · exact List.forall_mem_cons.mpr ⟨by simp, hgroups⟩
  · rw [Text.join_cons_cons]
    rfl

/-- A digit before another belongs to the same group. -/
theorem IsNumeral.more (h : Text.IsDecimalDigit c d) (ht : IsNumeral t ds) :
    IsNumeral (c :: t) (d :: ds) := by
  obtain ⟨groups, hne, hgroups, rfl, hdigits⟩ := ht
  obtain ⟨g, gs, rfl⟩ := List.exists_cons_of_ne_nil hne
  have hgs := (List.forall_mem_cons.mp hgroups).2
  refine ⟨(c :: g) :: gs, by simp, ?_, (Text.join_cons_head ['_'] c g gs).symm, .cons h hdigits⟩
  exact List.forall_mem_cons.mpr ⟨by simp, hgs⟩

theorem digits?_apart (c : Char) (t : Text) : digits? (c :: '_' :: t) = do
    let d ← Text.decimalDigit? c
    let ds ← digits? t
    return d :: ds := by
  rw [digits?]

theorem digits?_more (h : c' ≠ '_') (t : Text) : digits? (c :: c' :: t) = do
    let d ← Text.decimalDigit? c
    let ds ← digits? (c' :: t)
    return d :: ds := by
  rw [digits?]
  exact h

theorem isNumeral_of_digits? : ∀ {t : Text} {ds : List Nat}, digits? t = some ds → IsNumeral t ds := by
  intro t
  fun_induction digits? t with
  | case1 => simp
  | case2 c =>
    intro ds h
    obtain ⟨d, hd, rfl⟩ := Option.map_eq_some_iff.mp h
    exact .single (Text.decimalDigit?_eq_some_iff.mp hd)
  | case3 c cs ih =>
    intro ds h
    obtain ⟨d, hd, h⟩ := Option.bind_eq_some_iff.mp h
    obtain ⟨ds', hds, h⟩ := Option.bind_eq_some_iff.mp h
    rw [← Option.some.inj h]
    exact .apart (Text.decimalDigit?_eq_some_iff.mp hd) (ih hds)
  | case4 c c' cs _ ih =>
    intro ds h
    obtain ⟨d, hd, h⟩ := Option.bind_eq_some_iff.mp h
    obtain ⟨ds', hds, h⟩ := Option.bind_eq_some_iff.mp h
    rw [← Option.some.inj h]
    exact .more (Text.decimalDigit?_eq_some_iff.mp hd) (ih hds)

/-- The induction is on the digits: each step takes one off the first group, or
the group itself if that was its last. -/
theorem digits?_join : ∀ {ds : List Nat} {g : Text} {gs : List Text}, g ≠ [] → (∀ w ∈ gs, w ≠ []) →
    List.Forall₂ Text.IsDecimalDigit (g :: gs).flatten ds →
      digits? (Text.join ['_'] (g :: gs)) = some ds := by
  intro ds
  induction ds with
  | nil =>
    intro g gs hg _ hdigits
    rw [List.flatten_cons] at hdigits
    exact absurd (List.append_eq_nil_iff.mp (List.forall₂_nil_right_iff.mp hdigits)).1 hg
  | cons d ds ih =>
    intro g gs hg hgs hdigits
    obtain ⟨c, g, rfl⟩ := List.exists_cons_of_ne_nil hg
    rw [List.flatten_cons, List.cons_append, List.forall₂_cons] at hdigits
    obtain ⟨hc, hdigits⟩ := hdigits
    have hread := Text.decimalDigit?_eq_some_iff.mpr hc
    cases g with
    | nil =>
      cases gs with
      | nil =>
        obtain rfl : ds = [] := List.forall₂_nil_left_iff.mp hdigits
        rw [Text.join_singleton, digits?, hread]
        rfl
      | cons w ws =>
        obtain ⟨hw, hws⟩ := List.forall_mem_cons.mp hgs
        have hjoin : Text.join ['_'] ([c] :: w :: ws) = c :: '_' :: Text.join ['_'] (w :: ws) := by
          rw [Text.join_cons_cons]
          rfl
        rw [hjoin, digits?_apart, hread, ih hw hws hdigits]
        rfl
    | cons c' g =>
      have hc' : c' ≠ '_' := by
        obtain ⟨d', u, hd', -, -⟩ := List.forall₂_cons_left_iff.mp hdigits
        exact ne_underscore hd'
      have hrest := ih (List.cons_ne_nil c' g) hgs hdigits
      rw [Text.join_cons_head] at hrest
      rw [Text.join_cons_head, Text.join_cons_head, digits?_more hc', hread, hrest]
      rfl

/-- **Reading digits accepts exactly the numerals.** -/
theorem digits?_eq_some_iff : digits? t = some ds ↔ IsNumeral t ds := by
  constructor
  · exact isNumeral_of_digits?
  · rintro ⟨groups, hne, hgroups, rfl, hdigits⟩
    obtain ⟨g, gs, rfl⟩ := List.exists_cons_of_ne_nil hne
    obtain ⟨hg, hgs⟩ := List.forall_mem_cons.mp hgroups
    exact digits?_join hg hgs hdigits

/-- The digits, most significant first, are those of the number in base ten. -/
theorem value_eq_ofDigits (ds : List Nat) : value ds = Nat.ofDigits 10 ds.reverse := by
  induction ds using List.reverseRecOn with
  | nil => rfl
  | append_singleton ds d ih =>
    have hvalue : value (ds ++ [d]) = value ds * 10 + d := by simp [value]
    have hdigits : Nat.ofDigits 10 (ds ++ [d]).reverse = d + 10 * Nat.ofDigits 10 ds.reverse := by
      rw [List.reverse_append, List.reverse_singleton, List.singleton_append, Nat.ofDigits_cons]
    omega

/-- A numeral of at most 4300 digits, and the number that it denotes. -/
theorem readDigits?_eq_some_iff {n : Nat} : readDigits? t = some n ↔
    ∃ ds, IsNumeral t ds ∧ ds.length ≤ 4300 ∧ n = Nat.ofDigits 10 ds.reverse := by
  unfold readDigits?
  cases hread : digits? t with
  | none =>
    refine iff_of_false (by simp) ?_
    rintro ⟨ds, hds, -⟩
    rw [digits?_eq_some_iff.mpr hds] at hread
    simp at hread
  | some ds =>
    have hds := digits?_eq_some_iff.mp hread
    have hmax : maxDigits = 4300 := rfl
    simp only [hmax, value_eq_ofDigits]
    constructor
    · intro h
      split_ifs at h with hlength
      exact ⟨ds, hds, hlength, (Option.some.inj h).symm⟩
    · rintro ⟨ds', hds', hlength, rfl⟩
      have hsame : ds = ds' := by
        rw [digits?_eq_some_iff.mpr hds'] at hread
        exact (Option.some.inj hread).symm
      rw [hsame, if_pos hlength]

/-! ### Signs and white space -/

/-- A sign, or none, and the factor that it stands for. -/
inductive IsSign : Text → Int → Prop
  | none : IsSign [] 1
  | plus : IsSign ['+'] 1
  | minus : IsSign ['-'] (-1)

/-- An integer: a numeral of at most 4300 digits behind a sign or none, with
white space before and after, and the number that it denotes. -/
def IsInteger (t : Text) (n : Int) : Prop :=
  ∃ before sign numeral after factor ds, t = before ++ (sign ++ numeral) ++ after ∧
    Text.AllBlank Text.isNumeralBlank before ∧ Text.AllBlank Text.isNumeralBlank after ∧
    IsSign sign factor ∧ IsNumeral numeral ds ∧ ds.length ≤ 4300 ∧
    n = factor * (Nat.ofDigits 10 ds.reverse : Nat)

theorem IsNumeral.mem (h : IsNumeral t ds) (hc : c ∈ t) : c = '_' ∨ ∃ d, Text.IsDecimalDigit c d := by
  obtain ⟨groups, -, -, rfl, hdigits⟩ := h
  rcases Text.mem_join hc with hc | ⟨g, hg, hc⟩
  · exact .inl hc
  · have hmem : c ∈ groups.flatten := List.mem_flatten.mpr ⟨g, hg, hc⟩
    obtain ⟨i, hi, rfl⟩ := List.mem_iff_getElem.mp hmem
    exact .inr ⟨_, hdigits.get hi (hdigits.length_eq ▸ hi)⟩

/-- A numeral begins with a digit, so with no sign. -/
theorem IsNumeral.exists_cons (h : IsNumeral t ds) :
    ∃ c rest d, t = c :: rest ∧ Text.IsDecimalDigit c d := by
  obtain ⟨groups, hne, hgroups, rfl, hdigits⟩ := h
  obtain ⟨g, gs, rfl⟩ := List.exists_cons_of_ne_nil hne
  obtain ⟨c, g, rfl⟩ := List.exists_cons_of_ne_nil (List.forall_mem_cons.mp hgroups).1
  obtain ⟨d, u, hd, -, -⟩ := List.forall₂_cons_left_iff.mp hdigits
  exact ⟨c, _, d, Text.join_cons_head ['_'] c g gs, hd⟩

theorem isTrimmed_signed {sign : Text} {factor : Int} (hs : IsSign sign factor)
    (h : IsNumeral t ds) : Text.IsTrimmed Text.isNumeralBlank (sign ++ t) := by
  apply Text.IsTrimmed.of_forall
  intro c hc
  rcases List.mem_append.mp hc with hc | hc
  · cases hs with
    | none => simp at hc
    | plus =>
      rw [List.mem_singleton.mp hc]
      decide
    | minus =>
      rw [List.mem_singleton.mp hc]
      decide
  · rcases h.mem hc with rfl | ⟨d, hd⟩
    · decide
    · exact Text.isNumeralBlank_of_digit hd

theorem lifted_eq_some_iff {o : Option Nat} {n : Int} :
    (do let m ← o; pure (m : Int)) = some n ↔ ∃ m, o = some m ∧ n = m := by
  cases o <;> simp [eq_comm]

/-- A numeral begins with no sign. -/
theorem IsNumeral.head_ne_sign (h : IsNumeral (c :: t) ds) : c ≠ '-' ∧ c ≠ '+' := by
  obtain ⟨c', rest, d, heq, hd⟩ := h.exists_cons
  obtain rfl := (List.cons.inj heq).1
  constructor <;> rintro rfl <;> exact Text.not_isDecimalDigit (by decide) hd

/-- What is left of a text when it is trimmed decides which integer it is. -/
theorem isInteger_of_trim {sign numeral : Text} {factor n : Int} {m : Nat}
    (hsign : IsSign sign factor) (htrim : Text.trimOf Text.isNumeralBlank t = sign ++ numeral)
    (hread : readDigits? numeral = some m) (hn : n = factor * (m : Int)) : IsInteger t n := by
  obtain ⟨before, after, ht, hbefore, hafter⟩ := Text.exists_eq_append_trimOf Text.isNumeralBlank t
  obtain ⟨ds, hds, hlength, rfl⟩ := readDigits?_eq_some_iff.mp hread
  rw [htrim] at ht
  exact ⟨before, sign, numeral, after, factor, ds, ht, hbefore, hafter, hsign, hds, hlength, hn⟩

theorem isInteger_of_read? {n : Int} (h : read? t = some n) : IsInteger t n := by
  unfold read? at h
  split at h
  · rename_i numeral htrim
    obtain ⟨a, ha, rfl⟩ := Option.map_eq_some_iff.mp h
    obtain ⟨m, hm, rfl⟩ := lifted_eq_some_iff.mp ha
    exact isInteger_of_trim .minus htrim hm (by omega)
  · rename_i numeral htrim
    obtain ⟨a, ha, rfl⟩ := Option.map_eq_some_iff.mp h
    obtain ⟨m, hm, rfl⟩ := lifted_eq_some_iff.mp ha
    exact isInteger_of_trim .plus htrim hm (by omega)
  · obtain ⟨a, ha, rfl⟩ := Option.map_eq_some_iff.mp h
    obtain ⟨m, hm, rfl⟩ := lifted_eq_some_iff.mp ha
    exact isInteger_of_trim .none (List.nil_append _).symm hm (by omega)

theorem read?_of_isInteger {n : Int} (h : IsInteger t n) : read? t = some n := by
  obtain ⟨before, sign, numeral, after, factor, ds, rfl, hbefore, hafter, hsign, hds, hlength, rfl⟩ := h
  have hread := lifted_eq_some_iff.mpr ⟨_, readDigits?_eq_some_iff.mpr ⟨ds, hds, hlength, rfl⟩, rfl⟩
  unfold read?
  rw [Text.trimOf_append hbefore (isTrimmed_signed hsign hds) hafter]
  cases hsign with
  | minus => exact Option.map_eq_some_iff.mpr ⟨_, hread, by omega⟩
  | plus => exact Option.map_eq_some_iff.mpr ⟨_, hread, by omega⟩
  | none =>
    -- The numeral is read as it stands, because it does not look like a signed one.
    rw [List.nil_append]
    split
    · exact absurd rfl hds.head_ne_sign.1
    · exact absurd rfl hds.head_ne_sign.2
    · exact Option.map_eq_some_iff.mpr ⟨_, hread, by omega⟩

/-- **Reading accepts exactly the integers**, each as the number that it denotes. -/
theorem read?_eq_some_iff {n : Int} : read? t = some n ↔ IsInteger t n :=
  ⟨isInteger_of_read?, read?_of_isInteger⟩

end Integer
end ReverseDns
