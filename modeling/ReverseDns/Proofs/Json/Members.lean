/-
# Members of an object

Setting a member changes the value of its name and of no other (`get?_put`), adds no
name but that one, and keeps the names distinct (`nodup_put`). Under distinct names the
value of a name is that of the one member that has it (`get?_eq_some_iff`), and setting
several members gives each of their names its value (`get?_putAll`).

Key definition: `Json.putAll`.
Key theorems: `Json.get?_put`, `Json.nodup_put`, `Json.mem_put`, `Json.get?_eq_some_iff`,
`Json.get?_putAll`.
-/
import ReverseDns.Json.Value

namespace ReverseDns
namespace Json

variable {name n : Text} {v w : Value} {ms : Members} {m : Text × Value}

/-! ### Setting a member -/

theorem put_of_notMem : ∀ {ms : Members}, name ∉ ms.map Prod.fst → put name v ms = ms ++ [(name, v)]
  | [], _ => rfl
  | (n, w) :: ms, h => by
    rw [List.map_cons, List.mem_cons, not_or] at h
    rw [put, if_neg (Ne.symm h.1), put_of_notMem h.2, List.cons_append]

/-- **Setting a member changes the value of its name alone.** -/
theorem get?_put : ∀ ms : Members, get? n (put name v ms) = if n = name then some v else get? n ms
  | [] => by simp [put, get?, eq_comm]
  | (k, w) :: ms => by
    have ih := get?_put ms
    rw [put]
    by_cases hk : k = name
    · -- The name is here, and its place is kept.
      subst hk
      by_cases h : n = k
      · simp [get?, h]
      · simp [get?, h, Ne.symm h]
    · by_cases h : n = k
      · subst h
        simp [get?, hk]
      · simp [get?, hk, Ne.symm h, ih]

theorem mem_put : ∀ {ms : Members}, m ∈ put name v ms → m = (name, v) ∨ m ∈ ms
  | [], h => .inl (List.mem_singleton.mp h)
  | (k, w) :: ms, h => by
    rw [put] at h
    split at h
    · rename_i hk
      rw [hk] at h
      exact (List.mem_cons.mp h).imp_right (List.mem_cons_of_mem _)
    · rcases List.mem_cons.mp h with rfl | h
      · exact .inr List.mem_cons_self
      · exact (mem_put h).imp_right (List.mem_cons_of_mem _)

/-- **Setting a member keeps the names distinct.** -/
theorem nodup_put : ∀ {ms : Members}, (ms.map Prod.fst).Nodup →
    ((put name v ms).map Prod.fst).Nodup
  | [], _ => by simp [put]
  | (k, w) :: ms, h => by
    obtain ⟨hk, hms⟩ := List.nodup_cons.mp h
    rw [put]
    split
    · exact h
    · rename_i hne
      refine List.nodup_cons.mpr ⟨fun hmem => ?_, nodup_put hms⟩
      obtain ⟨m, hm, hname⟩ := List.mem_map.mp hmem
      rcases mem_put hm with rfl | hm
      · exact hne hname.symm
      · exact hk (hname ▸ List.mem_map_of_mem hm)

/-! ### The value of a name -/

theorem get?_eq_none (h : n ∉ ms.map Prod.fst) : get? n ms = none := by
  induction ms with
  | nil => rfl
  | cons m ms ih =>
    rw [List.map_cons, List.mem_cons, not_or] at h
    rw [get?, if_neg (Ne.symm h.1), ih h.2]

/-- **A name has the value of its member**, if no other member has the name. -/
theorem get?_eq_some_iff (h : (ms.map Prod.fst).Nodup) : get? n ms = some v ↔ (n, v) ∈ ms := by
  induction ms with
  | nil => simp [get?]
  | cons m ms ih =>
    obtain ⟨k, w⟩ := m
    obtain ⟨hk, hms⟩ := List.nodup_cons.mp h
    rw [get?, List.mem_cons, Prod.mk.injEq]
    by_cases hn : k = n
    · subst hn
      have hnotMem : (k, v) ∉ ms := fun hmem => hk (List.mem_map.mpr ⟨_, hmem, rfl⟩)
      simp [hnotMem, eq_comm]
    · simp [hn, Ne.symm hn, ih hms]

/-! ### Setting several members -/

/-- Sets members one after the other. -/
def putAll (ns ms : Members) : Members := ns.foldl (fun acc m => put m.1 m.2 acc) ms

theorem mem_putAll : ∀ {ns ms : Members}, m ∈ putAll ns ms → m ∈ ns ∨ m ∈ ms
  | [], _, h => .inr h
  | k :: ns, ms, h => by
    have hrest : m ∈ ns ∨ m ∈ put k.1 k.2 ms := mem_putAll h
    rcases hrest with h | h
    · exact .inl (List.mem_cons_of_mem k h)
    · rcases mem_put h with rfl | h
      · exact .inl List.mem_cons_self
      · exact .inr h

theorem nodup_putAll : ∀ {ns ms : Members}, (ms.map Prod.fst).Nodup →
    ((putAll ns ms).map Prod.fst).Nodup
  | [], _, h => h
  | _ :: ns, _, h => @nodup_putAll ns _ (nodup_put h)

/-- **Names that are set have the values set**, and all others those they had. -/
theorem get?_putAll : ∀ {ns : Members} (ms : Members), (ns.map Prod.fst).Nodup →
    get? n (putAll ns ms) = (get? n ns).or (get? n ms)
  | [], _, _ => rfl
  | (k, w) :: ns, ms, h => by
    obtain ⟨hk, hns⟩ := List.nodup_cons.mp h
    have ih : get? n (putAll ((k, w) :: ns) ms) = (get? n ns).or (get? n (put k w ms)) :=
      get?_putAll (put k w ms) hns
    rw [ih, get?_put, get?]
    by_cases hn : n = k
    · subst hn
      rw [get?_eq_none hk, if_pos rfl, if_pos rfl]
      rfl
    · rw [if_neg hn, if_neg (Ne.symm hn)]

end Json
end ReverseDns
