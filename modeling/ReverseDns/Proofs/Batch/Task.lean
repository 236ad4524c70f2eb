/-
# The tasks of a batch and their results

Every task has the position of a good entry, and no two have the same
(`mem_tasks_iff`, `nodup_tasks`). Attaching a result changes the entry at the
task's position and no other, so in whatever order the results of all tasks are
attached, each entry ends with the result of its own task
(`foldl_attach_eq_mapIdx`).

Key definitions: `Batch.resolved`.
Key theorems: `Batch.mem_tasks_iff`, `Batch.nodup_tasks`, `Batch.foldl_attach_eq_mapIdx`.
-/
import ReverseDns.Batch

namespace ReverseDns
namespace Batch

/-! ### Which tasks there are -/

section

variable {timeout : Int} {index : Nat} {e : Entry} {t : Task}

/-- A good entry with a name has one task, with that name. -/
theorem task?_eq_some_iff : task? timeout index e = some t ↔
    (t.index = index ∧ t.timeout = timeout) ∧ e.isOk = true ∧ e.reverseName = some t.name := by
  obtain ⟨i, name, s⟩ := t
  unfold task?
  split
  · rename_i hok
    simp only [Option.map_eq_some_iff, Task.mk.injEq, hok, true_and]
    constructor
    · rintro ⟨n, hn, rfl, rfl, rfl⟩
      exact ⟨⟨rfl, rfl⟩, hn⟩
    · rintro ⟨⟨rfl, rfl⟩, hn⟩
      exact ⟨name, hn, rfl, rfl, rfl⟩
  · rename_i hok
    simp [hok]

theorem index_of_task? (h : task? timeout index e = some t) : t.index = index :=
  (task?_eq_some_iff.mp h).1.1

theorem mem_tasks_cons {es : List Entry} : t ∈ tasks timeout index (e :: es) ↔
    task? timeout index e = some t ∨ t ∈ tasks timeout (index + 1) es := by
  rw [tasks, List.mem_append, Option.mem_toList]

theorem le_index_of_mem_tasks : ∀ {es : List Entry} {index : Nat},
    t ∈ tasks timeout index es → index ≤ t.index
  | [], _, h => by simp [tasks] at h
  | e :: es, index, h => by
    rcases mem_tasks_cons.mp h with h | h
    · exact Nat.le_of_eq (index_of_task? h).symm
    · exact Nat.le_of_succ_le (le_index_of_mem_tasks h)

theorem mem_tasks_iff_sub : ∀ {es : List Entry} {index : Nat}, t ∈ tasks timeout index es ↔
    index ≤ t.index ∧ ∃ e, es[t.index - index]? = some e ∧ task? timeout t.index e = some t
  | [], _ => by simp [tasks]
  | e :: es, index => by
    rw [mem_tasks_cons, mem_tasks_iff_sub]
    constructor
    · rintro (h | ⟨hle, d, hd, ht⟩)
      · have hi := index_of_task? h
        rw [hi]
        exact ⟨Nat.le_refl _, e, by simp, h⟩
      · refine ⟨by omega, d, ?_, ht⟩
        rw [show t.index - index = t.index - (index + 1) + 1 by omega, List.getElem?_cons_succ]
        exact hd
    · rintro ⟨hle, d, hd, ht⟩
      by_cases hi : t.index = index
      · left
        rw [hi, Nat.sub_self, List.getElem?_cons_zero] at hd
        rw [Option.some.inj hd, ← hi]
        exact ht
      · right
        rw [show t.index - index = t.index - (index + 1) + 1 by omega, List.getElem?_cons_succ] at hd
        exact ⟨by omega, d, hd, ht⟩

/-- **The tasks of a batch are those of its entries.** -/
theorem mem_tasks_iff {es : List Entry} : t ∈ tasks timeout 0 es ↔
    ∃ e, es[t.index]? = some e ∧ task? timeout t.index e = some t := by
  rw [mem_tasks_iff_sub]
  simp

/-- No two tasks are for the same entry. -/
theorem nodup_tasks : ∀ (es : List Entry) (index : Nat),
    ((tasks timeout index es).map Task.index).Nodup
  | [], _ => List.nodup_nil
  | e :: es, index => by
    rw [tasks, List.map_append]
    cases he : task? timeout index e with
    | none => exact nodup_tasks es (index + 1)
    | some t =>
      rw [Option.toList_some, List.map_singleton, List.singleton_append, List.nodup_cons]
      refine ⟨fun h => ?_, nodup_tasks es (index + 1)⟩
      obtain ⟨u, hu, hi⟩ := List.mem_map.mp h
      have hle := le_index_of_mem_tasks hu
      rw [hi, index_of_task? he] at hle
      omega

end

/-! ### Attaching results -/

section

variable {lookup : Task → Ptr.Lookup} {es : List Entry} {t : Task} {i : Nat}

/-- An entry with the result of its own task, if it has one. -/
def resolved (timeout : Int) (lookup : Task → Ptr.Lookup) (index : Nat) (e : Entry) : Entry :=
  match task? timeout index e with
  | some t => { e with ptr := some (settle t.name (lookup t).outcome) }
  | none => e

theorem getElem?_attach {l : Ptr.Lookup} : (attach es t l)[i]? =
    if t.index = i then es[i]?.map fun e => { e with ptr := some (settle t.name l.outcome) }
    else es[i]? := by
  rw [attach, List.getElem?_modify]
  split
  · rfl
  · exact Option.map_id'

theorem getElem?_attach_ne {l : Ptr.Lookup} (h : t.index ≠ i) : (attach es t l)[i]? = es[i]? := by
  rw [getElem?_attach, if_neg h]

/-- The results of other tasks leave an entry as it is. -/
theorem getElem?_foldl_attach_of_ne : ∀ {ts : List Task} {es : List Entry},
    (∀ t ∈ ts, t.index ≠ i) → (ts.foldl (fun es t => attach es t (lookup t)) es)[i]? = es[i]?
  | [], _, _ => rfl
  | t :: ts, es, h => by
    rw [List.foldl_cons, getElem?_foldl_attach_of_ne fun u hu => h u (List.mem_cons_of_mem t hu),
      getElem?_attach_ne (h t List.mem_cons_self)]

/-- Among tasks for different entries each gives its entry its result. -/
theorem getElem?_foldl_attach : ∀ {ts : List Task} {es : List Entry},
    (ts.map Task.index).Nodup → t ∈ ts →
    (ts.foldl (fun es t => attach es t (lookup t)) es)[t.index]? =
      es[t.index]?.map fun e => { e with ptr := some (settle t.name (lookup t).outcome) }
  | u :: ts, es, hn, h => by
    rw [List.map_cons, List.nodup_cons] at hn
    rw [List.foldl_cons]
    rcases List.mem_cons.mp h with rfl | h
    · rw [getElem?_foldl_attach_of_ne, getElem?_attach, if_pos rfl]
      intro v hv hvt
      exact hn.1 (hvt ▸ List.mem_map_of_mem hv)
    · have hne : u.index ≠ t.index := fun hut => hn.1 (hut ▸ List.mem_map_of_mem h)
      rw [getElem?_foldl_attach hn.2 h, getElem?_attach_ne hne]

/-- **The order of results decides nothing.** When all tasks of the entries have
given their results, in any order, each entry has the result of its own. -/
theorem foldl_attach_eq_mapIdx {timeout : Int} {ts : List Task}
    (h : ts.Perm (tasks timeout 0 es)) :
    ts.foldl (fun es t => attach es t (lookup t)) es = es.mapIdx (resolved timeout lookup) := by
  have hn : (ts.map Task.index).Nodup := (h.map Task.index).nodup_iff.mpr (nodup_tasks es 0)
  apply List.ext_getElem?
  intro i
  rw [List.getElem?_mapIdx]
  cases he : es[i]? with
  | none =>
    rw [getElem?_foldl_attach_of_ne, he, Option.map_none]
    intro t ht hi
    obtain ⟨e, ht, -⟩ := mem_tasks_iff.mp (h.subset ht)
    rw [hi, he] at ht
    simp at ht
  | some e =>
    rw [Option.map_some, resolved]
    cases ht : task? timeout i e with
    | some t =>
      obtain rfl := index_of_task? ht
      rw [getElem?_foldl_attach hn (h.mem_iff.mpr (mem_tasks_iff.mpr ⟨e, he, ht⟩)), he]
      rfl
    | none =>
      rw [getElem?_foldl_attach_of_ne, he]
      intro t hmem hi
      obtain ⟨d, hd, hdt⟩ := mem_tasks_iff.mp (h.subset hmem)
      rw [hi] at hd hdt
      rw [he, Option.some.injEq] at hd
      rw [← hd, ht] at hdt
      simp at hdt

end

end Batch
end ReverseDns
