/-
# Texts in code-point order

Two texts are in order if the first begins the second, or else has the smaller code point
where they first differ (`Text.InOrder`). Any two texts are in order one way round, and
only equal ones are both ways round; so there is one way to put texts in order, duplicates
kept, and sorting finds it (`Text.mergeSort_eq_iff`).

Key definition: `Text.InOrder`.
Key theorems: `Text.inOrder_iff`, `Text.mergeSort_eq_iff`.
-/
import ReverseDns.Text

namespace ReverseDns
namespace Text

/-- The first text begins the second, or has the smaller code point where they first
differ. -/
def InOrder (s t : Text) : Prop :=
  s <+: t ∨ ∃ shared c d u v, s = shared ++ c :: u ∧ t = shared ++ d :: v ∧ c.toNat < d.toNat

variable {s t : Text} {c d : Char} {ts ts' : List Text}

theorem inOrder_cons_cons : InOrder (c :: s) (d :: t) ↔ c.toNat < d.toNat ∨ c = d ∧ InOrder s t := by
  unfold InOrder
  constructor
  · rintro (h | ⟨shared, c', d', u, v, hs, ht, hlt⟩)
    · obtain ⟨hc, hrest⟩ := List.cons_prefix_cons.mp h
      exact .inr ⟨hc, .inl hrest⟩
    · cases shared with
      | nil =>
        rw [(List.cons.inj hs).1, (List.cons.inj ht).1]
        exact .inl hlt
      | cons x shared =>
        have hc : c = d := (List.cons.inj hs).1.trans (List.cons.inj ht).1.symm
        exact .inr ⟨hc, .inr ⟨shared, c', d', u, v, (List.cons.inj hs).2, (List.cons.inj ht).2, hlt⟩⟩
  · rintro (hlt | ⟨rfl, h | ⟨shared, c', d', u, v, hs, ht, hlt⟩⟩)
    · exact .inr ⟨[], c, d, s, t, rfl, rfl, hlt⟩
    · exact .inl (List.cons_prefix_cons.mpr ⟨rfl, h⟩)
    · exact .inr ⟨c :: shared, c', d', u, v, by rw [hs]; rfl, by rw [ht]; rfl, hlt⟩

/-- Being in order is the order of lists of characters. -/
theorem inOrder_iff : ∀ {s t : Text}, InOrder s t ↔ ¬ t < s
  | [], t => iff_of_true (.inl List.nil_prefix) (List.not_lt_nil t)
  | c :: s, [] => by simp [InOrder]
  | c :: s, d :: t => by
    rw [inOrder_cons_cons, inOrder_iff, List.cons_lt_cons_iff]
    have hlt : d < c ↔ d.toNat < c.toNat := Iff.rfl
    rcases Nat.lt_trichotomy c.toNat d.toNat with hcd | hcd | hcd
    · have hne : d ≠ c := by
        rintro rfl
        omega
      simp [hlt, hcd, hne, Nat.lt_asymm hcd]
    · obtain rfl := Char.toNat_inj.mp hcd
      simp only [hlt, Nat.lt_irrefl, false_or, true_and]
    · have hne : c ≠ d := by
        rintro rfl
        omega
      simp [hlt, hcd, hne, Nat.lt_asymm hcd]

theorem le_iff : le s t = true ↔ InOrder s t := by
  rw [inOrder_iff, le, Bool.not_eq_true', decide_eq_false_iff_not]

instance : DecidableRel InOrder := fun _ _ => decidable_of_iff _ le_iff

theorem InOrder.trans {u : Text} (hst : InOrder s t) (htu : InOrder t u) : InOrder s u :=
  inOrder_iff.mpr (List.not_lt.mpr
    (List.le_trans (List.not_lt.mp (inOrder_iff.mp hst)) (List.not_lt.mp (inOrder_iff.mp htu))))

theorem InOrder.antisymm (hst : InOrder s t) (hts : InOrder t s) : s = t :=
  List.le_antisymm (List.not_lt.mp (inOrder_iff.mp hst)) (List.not_lt.mp (inOrder_iff.mp hts))

theorem inOrder_total (s t : Text) : InOrder s t ∨ InOrder t s := by
  rw [inOrder_iff, inOrder_iff, List.not_lt, List.not_lt]
  exact List.le_total s t

/-- Sorted texts are in order. -/
theorem pairwise_mergeSort (ts : List Text) : (ts.mergeSort le).Pairwise InOrder := by
  have htrans : ∀ s t u : Text, le s t = true → le t u = true → le s u = true := by
    simp only [le_iff]
    exact fun _ _ _ => InOrder.trans
  have htotal : ∀ s t : Text, (le s t || le t s) = true := by
    simp only [Bool.or_eq_true, le_iff]
    exact inOrder_total
  exact (List.pairwise_mergeSort htrans htotal ts).imp le_iff.mp

/-- **There is one way to put texts in order**, and sorting finds it. -/
theorem mergeSort_eq_iff : ts.mergeSort le = ts' ↔ ts'.Perm ts ∧ ts'.Pairwise InOrder := by
  have hperm := List.mergeSort_perm ts le
  constructor
  · rintro rfl
    exact ⟨hperm, pairwise_mergeSort ts⟩
  · rintro ⟨hts, hsorted⟩
    exact (hperm.trans hts.symm).eq_of_pairwise (fun _ _ _ _ => InOrder.antisymm)
      (pairwise_mergeSort ts) hsorted

end Text
end ReverseDns
