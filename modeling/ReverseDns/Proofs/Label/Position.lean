/-
# A text that is no label is refused for the first thing wrong with it

What may stand in a label depends on the place: letters and digits everywhere,
a hyphen only between two other characters (`MayStandAt`). A text is a label if
it has one to 63 characters and each of them may stand where it does
(`isValid_iff`). Otherwise it is refused for its length if it is too long, for
having no characters, or for the leftmost character that may not stand where it
does, in this order (`check_first_offender`).

Key definitions: `Label.IsLetterOrDigit`, `Label.MayStandAt`, `Label.IsLeftmostNot`,
`Label.Search`.
Key theorems: `Label.search_firstIllegal`, `Label.isValid_iff`,
`Label.check_first_offender`.
-/
import ReverseDns.Proofs.Label

namespace ReverseDns
namespace Label

/-- A letter or digit of ASCII. -/
def IsLetterOrDigit (c : Char) : Prop :=
  ('A' ≤ c ∧ c ≤ 'Z') ∨ ('a' ≤ c ∧ c ≤ 'z') ∨ ('0' ≤ c ∧ c ≤ '9')

instance (c : Char) : Decidable (IsLetterOrDigit c) := inferInstanceAs (Decidable (_ ∨ _))

/-- What may stand at the place `i` of a text: a letter or digit, or a hyphen that
is neither first nor last. -/
def MayStandAt (t : Text) (i : Nat) (c : Char) : Prop :=
  IsLetterOrDigit c ∨ (c = '-' ∧ 0 < i ∧ i + 1 < t.length)

/-- At the place `i` stands `c`, which is the leftmost character without the
property `P` of its place. -/
structure IsLeftmostNot (P : Nat → Char → Prop) (t : Text) (i : Nat) (c : Char) : Prop where
  here : t[i]? = some c
  lacks : ¬ P i c
  before : ∀ j < i, ∀ d ∈ t[j]?, P j d

/-- What a search for that character must answer. -/
inductive Search (P : Nat → Char → Prop) (t : Text) : Option Char → Prop
  | all (each : ∀ i, ∀ d ∈ t[i]?, P i d) : Search P t none
  | leftmost {i : Nat} {c : Char} (first : IsLeftmostNot P t i c) : Search P t (some c)

variable {P : Nat → Char → Prop} {t : Text} {c d : Char} {i : Nat} {r : Option Char}

/-! ### The alphabet -/

theorem isOuter_iff : isOuter c = true ↔ IsLetterOrDigit c := by
  have hupper : c.isUpper = true ↔ 'A' ≤ c ∧ c ≤ 'Z' := decide_eq_true_iff
  have hlower : c.isLower = true ↔ 'a' ≤ c ∧ c ≤ 'z' :=
    Bool.and_eq_true_iff.trans (and_congr decide_eq_true_iff decide_eq_true_iff)
  have hdigit : c.isDigit = true ↔ '0' ≤ c ∧ c ≤ '9' := Char.isDigit_iff_toNat
  unfold isOuter IsLetterOrDigit Char.isAlphanum Char.isAlpha
  rw [Bool.or_eq_true, Bool.or_eq_true, or_assoc, hupper, hlower, hdigit]

theorem isInner_iff : isInner c = true ↔ IsLetterOrDigit c ∨ c = '-' := by
  unfold isInner
  rw [Bool.or_eq_true, isOuter_iff, beq_iff_eq]

/-- At either end a letter or digit must stand. -/
theorem mayStandAt_first : MayStandAt t 0 c ↔ isOuter c = true := by
  simp [MayStandAt, isOuter_iff]

theorem mayStandAt_last (x : Char) : MayStandAt [x, c] 1 c ↔ isOuter c = true := by
  simp [MayStandAt, isOuter_iff]

/-- Between two characters also a hyphen may stand. -/
theorem mayStandAt_between (x : Char) : MayStandAt (x :: c :: d :: t) 1 c ↔ isInner c = true := by
  simp [MayStandAt, isInner_iff]

/-- Behind the first character places may be counted from the second one on. -/
theorem mayStandAt_succ_succ (x y : Char) :
    MayStandAt (x :: y :: t) (i + 1 + 1) d ↔ MayStandAt (y :: t) (i + 1) d := by
  simp [MayStandAt]

/-! ### The search for the leftmost illegal character -/

theorem Search.congr {Q : Nat → Char → Prop} (h : ∀ i d, P i d ↔ Q i d) (hs : Search P t r) :
    Search Q t r := by
  have hPQ : P = Q := funext fun i => funext fun d => propext (h i d)
  exact hPQ ▸ hs

theorem search_here (h : ¬ P 0 c) : Search P (c :: t) (some c) :=
  .leftmost (i := 0) ⟨rfl, h, fun j hj => absurd hj (Nat.not_lt_zero j)⟩

/-- A first character with the property leaves the answer to those behind it. -/
theorem Search.cons (h : P 0 c) (hs : Search (fun i => P (i + 1)) t r) : Search P (c :: t) r := by
  have hfirst : ∀ d ∈ (c :: t)[0]?, P 0 d := by
    intro d hd
    obtain rfl : c = d := by simpa using hd
    exact h
  cases hs with
  | all each =>
    refine .all fun i d hd => ?_
    cases i with
    | zero => exact hfirst d hd
    | succ i => exact each i d (by simpa using hd)
  | @leftmost i e first =>
    refine .leftmost (i := i + 1) ⟨by simpa using first.here, first.lacks, fun j hj d hd => ?_⟩
    cases j with
    | zero => exact hfirst d hd
    | succ j => exact first.before j (Nat.lt_of_succ_lt_succ hj) d (by simpa using hd)

theorem search_firstIllegalLater (x : Char) : ∀ t : Text,
    Search (fun i => MayStandAt (x :: t) (i + 1)) t (firstIllegalLater t)
  | [] => .all (by simp)
  | [c] => by
    rw [firstIllegalLater]
    split
    · rename_i hc
      exact .cons ((mayStandAt_last x).mpr hc) (.all (by simp))
    · rename_i hc
      exact search_here (mt (mayStandAt_last x).mp hc)
  | c :: d :: t => by
    have ih := search_firstIllegalLater c (d :: t)
    rw [firstIllegalLater_cons_cons]
    split
    · rename_i hc
      exact .cons ((mayStandAt_between x).mpr hc) (ih.congr fun _ _ => (mayStandAt_succ_succ x c).symm)
    · rename_i hc
      exact search_here (mt (mayStandAt_between x).mp hc)

/-- **The character that is found is the leftmost illegal one**, and none is found
only where there is none. -/
theorem search_firstIllegal : Search (MayStandAt t) t (firstIllegal t) := by
  cases t with
  | nil => exact .all (by simp)
  | cons c t =>
    rw [firstIllegal]
    split
    · rename_i hc
      exact .cons (mayStandAt_first.mpr hc) (search_firstIllegalLater c t)
    · rename_i hc
      exact search_here (mt mayStandAt_first.mp hc)

/-! ### Labels and the others -/

/-- A hyphen at either end is what keeps letters, digits and hyphens from being legal
where they stand. -/
theorem isValid_iff : IsValid t ↔
    1 ≤ t.length ∧ t.length ≤ maxLength ∧ ∀ i, ∀ d ∈ t[i]?, MayStandAt t i d := by
  constructor
  · rintro ⟨hpos, hmax, hinner, hhead, hlast⟩
    refine ⟨hpos, hmax, fun i d hd => ?_⟩
    obtain ⟨hi, rfl⟩ := List.getElem?_eq_some_iff.mp hd
    rcases isInner_iff.mp (hinner t[i] (List.getElem_mem hi)) with hletter | hhyphen
    · exact Or.inl hletter
    · refine Or.inr ⟨hhyphen, ?_, ?_⟩
      · rcases Nat.eq_zero_or_pos i with rfl | hpos
        · rw [List.head?_eq_getElem?, hd, hhyphen] at hhead
          exact absurd rfl hhead
        · exact hpos
      · rcases Nat.lt_or_ge (i + 1) t.length with hlt | hge
        · exact hlt
        · have hi' : t.length - 1 = i := by omega
          rw [List.getLast?_eq_getElem?, hi', hd, hhyphen] at hlast
          exact absurd rfl hlast
  · rintro ⟨hpos, hmax, hlegal⟩
    have hno : ¬ IsLetterOrDigit '-' := by decide
    refine ⟨hpos, hmax, fun c hc => ?_, fun hhead => ?_, fun hlast => ?_⟩
    · obtain ⟨i, hi⟩ := List.mem_iff_getElem?.mp hc
      exact isInner_iff.mpr ((hlegal i c hi).imp_right And.left)
    · rw [List.head?_eq_getElem?] at hhead
      rcases hlegal 0 '-' hhead with h | ⟨-, h, -⟩
      · exact hno h
      · omega
    · rw [List.getLast?_eq_getElem?] at hlast
      rcases hlegal (t.length - 1) '-' hlast with h | ⟨-, -, h⟩
      · exact hno h
      · omega

theorem isLeftmostNot_of_firstIllegal (h : firstIllegal t = some c) :
    ∃ i, IsLeftmostNot (MayStandAt t) t i c := by
  have hs := search_firstIllegal (t := t)
  rw [h] at hs
  cases hs with
  | @leftmost i _ first => exact ⟨i, first⟩

theorem firstIllegal_eq_none_iff : firstIllegal t = none ↔ ∀ i, ∀ d ∈ t[i]?, MayStandAt t i d := by
  cases hr : firstIllegal t with
  | none =>
    have hs := search_firstIllegal (t := t)
    rw [hr] at hs
    cases hs with
    | all each => simpa using each
  | some c =>
    obtain ⟨i, first⟩ := isLeftmostNot_of_firstIllegal hr
    exact ⟨fun h => by simp at h, fun h => absurd (h i c first.here) first.lacks⟩

theorem cause?_of_long (h : maxLength < t.length) :
    cause? t = some (.length Subject.label t.length none (some maxLength)) := if_pos h

theorem cause?_nil : cause? [] = some (.emptyLabel Error.emptyLabelText) := rfl

theorem cause?_of_short (hmax : t.length ≤ maxLength) (hne : t ≠ []) :
    cause? t = (firstIllegal t).map fun c => .rune Subject.label [c] := by
  unfold cause?
  rw [if_neg (Nat.not_lt.mpr hmax), if_neg hne]

theorem cause?_eq_none_iff : cause? t = none ↔ IsValid t := by
  rw [isValid_iff]
  rcases Nat.lt_or_ge maxLength t.length with hlong | hmax
  · rw [cause?_of_long hlong]
    exact ⟨fun h => by simp at h, fun h => absurd hlong (Nat.not_lt.mpr h.2.1)⟩
  · by_cases hne : t = []
    · subst hne
      rw [cause?_nil]
      exact ⟨fun h => by simp at h, fun h => absurd h.1 (by simp)⟩
    · rw [cause?_of_short hmax hne, Option.map_eq_none_iff, firstIllegal_eq_none_iff]
      exact ⟨fun h => ⟨List.length_pos_iff.mpr hne, hmax, h⟩, fun h => h.2.2⟩

theorem check_eq_ok_iff_isValid : check t = .ok () ↔ IsValid t := by
  rw [check_eq_ok_iff, ← cause?_eq_none_iff]
  exact Option.map_eq_none_iff

/-- A text that is no label has a cause, with which it is refused. -/
theorem exists_cause_of_not_isValid (h : ¬ IsValid t) :
    ∃ cause, cause? t = some cause ∧ check t = .error (.malformedBy Subject.label t cause) := by
  rw [← cause?_eq_none_iff] at h
  obtain ⟨cause, hc⟩ := Option.ne_none_iff_exists'.mp h
  exact ⟨cause, hc, check_eq_error_iff.mpr ⟨cause, hc, rfl⟩⟩

theorem isValid_iff_alphabet : IsValid t ↔
    1 ≤ t.length ∧ t.length ≤ 63 ∧ (∀ c ∈ t, IsLetterOrDigit c ∨ c = '-') ∧
      t.head? ≠ some '-' ∧ t.getLast? ≠ some '-' := by
  unfold IsValid
  simp only [isInner_iff, maxLength]

/-- **Labels are accepted, and the first thing wrong with another text is its error.**
A text of more than 63 characters is refused for its length, whatever stands in it;
one without characters for that; and any other for the leftmost character that may
not stand at its place. -/
theorem check_first_offender (t : Text) :
    (check t = .ok () ↔ 1 ≤ t.length ∧ t.length ≤ 63 ∧ (∀ c ∈ t, IsLetterOrDigit c ∨ c = '-') ∧
      t.head? ≠ some '-' ∧ t.getLast? ≠ some '-') ∧
    (check t ≠ .ok () → ∃ cause, check t = .error (.malformedBy Subject.label t cause) ∧
      (cause = .length Subject.label t.length none (some 63) ↔ 63 < t.length) ∧
      (cause = .emptyLabel Error.emptyLabelText ↔ t = []) ∧
      (t.length ≤ 63 → t ≠ [] → ∃ i c, IsLeftmostNot (MayStandAt t) t i c ∧
        cause = .rune Subject.label [c])) := by
  refine ⟨check_eq_ok_iff_isValid.trans isValid_iff_alphabet, fun h => ?_⟩
  obtain ⟨cause, hcause, hcheck⟩ := exists_cause_of_not_isValid (mt check_eq_ok_iff_isValid.mpr h)
  refine ⟨cause, hcheck, ?_⟩
  rcases Nat.lt_or_ge maxLength t.length with hlong | hmax
  · rw [cause?_of_long hlong] at hcause
    obtain rfl := Option.some.inj hcause
    have hne : t ≠ [] := List.length_pos_iff.mp (Nat.lt_of_le_of_lt (Nat.zero_le _) hlong)
    exact ⟨⟨fun _ => hlong, fun _ => rfl⟩, ⟨fun h => by simp at h, fun h => absurd h hne⟩,
      fun h => absurd hlong (Nat.not_lt.mpr h)⟩
  · by_cases hne : t = []
    · subst hne
      obtain rfl := Option.some.inj (cause?_nil.symm.trans hcause)
      exact ⟨⟨fun h => by simp at h, fun h => by simp at h⟩, ⟨fun _ => rfl, fun _ => rfl⟩,
        fun _ h => absurd rfl h⟩
    · rw [cause?_of_short hmax hne] at hcause
      obtain ⟨c, hc, rfl⟩ := Option.map_eq_some_iff.mp hcause
      obtain ⟨i, first⟩ := isLeftmostNot_of_firstIllegal hc
      exact ⟨⟨fun h => by simp at h, fun h => absurd h (Nat.not_lt.mpr hmax)⟩,
        ⟨fun h => by simp at h, fun h => absurd h hne⟩, fun _ _ => ⟨i, c, first, rfl⟩⟩

/-- Two hyphens where they may stand, and the leftmost of three illegal characters. -/
theorem check_first_offender_accent :
    let t := "xn--é٣-".toList
    check t = .error (.malformedBy Subject.label t (.rune Subject.label ['é'])) ∧
      ∃ i, IsLeftmostNot (MayStandAt t) t i 'é' := by
  intro t
  have hcheck : check t = .error (.malformedBy Subject.label t (.rune Subject.label ['é'])) :=
    check_eq_error_iff.mpr ⟨_, by decide +kernel, rfl⟩
  obtain ⟨-, hrefused⟩ := check_first_offender t
  obtain ⟨cause, hcause, -, -, hrune⟩ := hrefused (by rw [hcheck]; simp)
  obtain ⟨i, c, first, rfl⟩ := hrune (by decide) (by decide)
  rw [hcheck] at hcause
  obtain ⟨-, -, hc⟩ := Error.malformedBy.inj (Except.error.inj hcause)
  obtain ⟨-, hc⟩ := Error.rune.inj hc
  obtain rfl := List.singleton_inj.mp hc
  exact ⟨hcheck, i, first⟩

end Label
end ReverseDns
