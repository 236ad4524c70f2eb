/-
# What `Label.check` accepts and reports

`check` refuses a text exactly with its `fault?` (`check_eq_error_iff`), and a
text of one to 63 letters and digits has none (`check_eq_ok_of_isOuter`). The
first refused label of a list is the one that `findSome?` stops at
(`findSome?_fault?_eq_some_iff`).

Key theorems: `Label.check_eq_ok_iff`, `Label.check_eq_error_iff`,
`Label.check_eq_ok_of_isOuter`, `Label.findSome?_fault?_eq_some_iff`.
-/
import ReverseDns.Label

namespace ReverseDns
namespace Label

variable {t : Text} {ts : List Text} {e cause : Error}

theorem check_eq_ok_iff : check t = .ok () ↔ fault? t = none := by
  unfold check
  split
  · rename_i h
    simp [h]
  · rename_i h
    simp [h]

theorem fault?_eq_some_iff : fault? t = some e ↔ check t = .error e := by
  unfold check
  split
  · rename_i h
    simp [h]
  · rename_i h
    simp [h]

/-- A refused label is reported as itself with what is wrong with it below. -/
theorem check_eq_error_iff :
    check t = .error e ↔ ∃ cause, cause? t = some cause ∧ e = .malformedBy Subject.label t cause := by
  rw [← fault?_eq_some_iff]
  unfold fault?
  rw [Option.map_eq_some_iff]
  constructor <;> rintro ⟨cause, hc, he⟩ <;> exact ⟨cause, hc, he.symm⟩

/-- Before the last character a hyphen is legal. -/
theorem firstIllegalLater_cons_cons (c d : Char) (t : Text) : firstIllegalLater (c :: d :: t) =
    if isInner c = true then firstIllegalLater (d :: t) else some c := by
  rw [firstIllegalLater]
  simp

/-! ### Letters and digits -/

theorem firstIllegalLater_eq_none : ∀ {t : Text}, (∀ c ∈ t, isOuter c = true) →
    firstIllegalLater t = none
  | [], _ => rfl
  | [c], h => by rw [firstIllegalLater, if_pos (h c (by simp))]
  | c :: d :: t, h => by
    have hc : isInner c = true := by simp [isInner, h c (by simp)]
    rw [firstIllegalLater_cons_cons, if_pos hc]
    exact firstIllegalLater_eq_none fun x hx => h x (List.mem_cons_of_mem c hx)

/-- One to 63 letters and digits make a label. -/
theorem check_eq_ok_of_isOuter (hne : t ≠ []) (hl : t.length ≤ maxLength)
    (h : ∀ c ∈ t, isOuter c = true) : check t = .ok () := by
  rw [check_eq_ok_iff]
  unfold fault? cause?
  rw [if_neg (by omega), if_neg hne, Option.map_eq_none_iff, Option.map_eq_none_iff]
  cases t with
  | nil => exact absurd rfl hne
  | cons c t =>
    rw [firstIllegal, if_pos (h c (by simp))]
    exact firstIllegalLater_eq_none fun x hx => h x (List.mem_cons_of_mem c hx)

/-! ### The illegal character -/

theorem mem_of_firstIllegalLater {c : Char} : ∀ {t : Text}, firstIllegalLater t = some c → c ∈ t
  | [d], h => by
    rw [firstIllegalLater] at h
    split at h
    · simp at h
    · simp [Option.some.inj h]
  | d :: x :: t, h => by
    rw [firstIllegalLater_cons_cons] at h
    split at h
    · exact List.mem_cons_of_mem d (mem_of_firstIllegalLater h)
    · simp [Option.some.inj h]

theorem mem_of_firstIllegal {c : Char} (h : firstIllegal t = some c) : c ∈ t := by
  match t, h with
  | d :: t, h =>
    rw [firstIllegal] at h
    split at h
    · exact List.mem_cons_of_mem d (mem_of_firstIllegalLater h)
    · simp [Option.some.inj h]

/-! ### The leftmost refused label -/

theorem findSome?_fault?_eq_none_iff :
    ts.findSome? fault? = none ↔ ∀ t ∈ ts, check t = .ok () := by
  simp only [List.findSome?_eq_none_iff, check_eq_ok_iff]

theorem findSome?_fault?_eq_some_iff : ts.findSome? fault? = some e ↔
    ∃ before t after, ts = before ++ t :: after ∧ check t = .error e ∧ ∀ s ∈ before, check s = .ok () := by
  simp only [List.findSome?_eq_some_iff, fault?_eq_some_iff, check_eq_ok_iff]

end Label
end ReverseDns
