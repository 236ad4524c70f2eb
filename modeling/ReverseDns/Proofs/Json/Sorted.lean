/-
# Sorting the members keeps a value

Sorting the members of all objects of a value changes their order and nothing
else (`reordered_sortKeys`), and an exact value stays exact. Two values of one
kind, whose objects have the same names in the same order to begin with, are still
told apart when they are sorted (`SortedApart`): the sorted members are permutations
of each other, so under distinct names they are the same.

Key definitions: `Json.Reordered`, `Json.SortedApart`, `Json.Fields`.
Key theorems: `Json.reordered_sortKeys`, `Json.exact_sortKeys`, `Json.Fields.sortedApart`.
-/
import ReverseDns.Proofs.Json.Layout

namespace ReverseDns
namespace Json

open Value (sortItems sortMembers)

variable {v w : Value} {vs ws : List Value} {ms ns : Members}

/-! ### Sorting as a permutation -/

theorem sortItems_eq_map : ∀ vs : List Value, sortItems vs = vs.map Value.sortKeys
  | [] => rfl
  | v :: vs => by rw [sortItems, sortItems_eq_map vs, List.map_cons]

theorem sortMembers_eq_map : ∀ ms : Members, sortMembers ms = ms.map fun m => (m.1, m.2.sortKeys)
  | [] => rfl
  | (n, v) :: ms => by rw [sortMembers, sortMembers_eq_map ms, List.map_cons]

theorem sortKeys_arr (vs : List Value) :
    (Value.arr vs).sortKeys = .arr (vs.map Value.sortKeys) := by
  rw [Value.sortKeys, sortItems_eq_map]

/-- The members of a sorted object: their values sorted, in order of their names. -/
def sorted (ms : Members) : Members :=
  (ms.map fun m => (m.1, m.2.sortKeys)).mergeSort fun a b => Text.le a.1 b.1

theorem sortKeys_obj (ms : Members) : (Value.obj ms).sortKeys = .obj (sorted ms) := by
  rw [Value.sortKeys, sortMembers_eq_map, sorted]

theorem perm_sorted (ms : Members) : (sorted ms).Perm (ms.map fun m => (m.1, m.2.sortKeys)) :=
  List.mergeSort_perm _ _

/-! ### The same value in another order -/

/-- The same value up to the order of the members of its objects. -/
inductive Reordered : Value → Value → Prop
  | same (v : Value) : Reordered v v
  | arr {vs ws : List Value} (items : List.Forall₂ Reordered vs ws) : Reordered (.arr vs) (.arr ws)
  | obj {ms ns ns' : Members} (names : ms.map Prod.fst = ns.map Prod.fst)
    (members : List.Forall₂ Reordered (ms.map Prod.snd) (ns.map Prod.snd))
    (order : ns'.Perm ns) : Reordered (.obj ms) (.obj ns')

mutual

/-- **Sorting changes the order of members only.** -/
theorem reordered_sortKeys : ∀ v : Value, Reordered v v.sortKeys
  | .arr vs => by
    rw [sortKeys_arr]
    exact .arr (reordered_items vs)
  | .obj ms => by
    rw [sortKeys_obj]
    exact .obj (by simp [Function.comp_def]) (reordered_members ms) (perm_sorted ms)
  | .null | .bool _ | .int _ | .float _ | .str _ => .same _

theorem reordered_items : ∀ vs : List Value, List.Forall₂ Reordered vs (vs.map Value.sortKeys)
  | [] => .nil
  | v :: vs => .cons (reordered_sortKeys v) (reordered_items vs)

theorem reordered_members : ∀ ms : Members, List.Forall₂ Reordered (ms.map Prod.snd)
    ((ms.map fun m => (m.1, m.2.sortKeys)).map Prod.snd)
  | [] => .nil
  | (_, v) :: ms => .cons (reordered_sortKeys v) (reordered_members ms)

end

/-- An exact value stays exact. -/
theorem exact_sortKeys (h : Exact v) : Exact v.sortKeys := by
  induction h with
  | null => exact .null
  | bool b => exact .bool b
  | int n => exact .int n
  | str t => exact .str t
  | @arr vs items ih =>
    rw [sortKeys_arr]
    refine .arr fun v hv => ?_
    obtain ⟨w, hw, rfl⟩ := List.mem_map.mp hv
    exact ih w hw
  | @obj ms names members ih =>
    have hnames : ((sorted ms).map Prod.fst).Perm (ms.map Prod.fst) := by
      simpa [Function.comp_def] using (perm_sorted ms).map Prod.fst
    rw [sortKeys_obj]
    refine .obj (hnames.nodup_iff.mpr names) fun n hn => ?_
    obtain ⟨m, hm, rfl⟩ := List.mem_map.mp ((perm_sorted ms).mem_iff.mp hn)
    exact ih m hm

/-! ### Values of one kind -/

/-- Sorting tells the values of `f` apart. -/
def SortedApart {α : Type} (f : α → Value) : Prop :=
  ∀ a b, (f a).sortKeys = (f b).sortKeys → f a = f b

variable {α β : Type} {f : α → Value} {g : β → Value}

theorem sortedApart_of_sortKeys_eq (h : ∀ a, (f a).sortKeys = f a) : SortedApart f := by
  intro a b hab
  rwa [h a, h b] at hab

theorem SortedApart.comp (h : SortedApart g) (p : α → β) : SortedApart fun a => g (p a) :=
  fun a b => h (p a) (p b)

theorem map_eq_of_map_sortKeys_eq (h : SortedApart f) : ∀ {as bs : List α},
    as.map (fun a => (f a).sortKeys) = bs.map (fun b => (f b).sortKeys) → as.map f = bs.map f
  | [], [], _ => rfl
  | [], _ :: _, hab => by simp at hab
  | _ :: _, [], hab => by simp at hab
  | a :: as, b :: bs, hab => by
    simp only [List.map_cons, List.cons.injEq] at hab
    rw [List.map_cons, List.map_cons, h a b hab.1, map_eq_of_map_sortKeys_eq h hab.2]

theorem SortedApart.arr (h : SortedApart f) : SortedApart fun as : List α => .arr (as.map f) := by
  intro as bs hab
  simp only [sortKeys_arr, List.map_map, Value.arr.injEq] at hab ⊢
  exact map_eq_of_map_sortKeys_eq h hab

theorem SortedApart.ofOption (h : SortedApart f) (hnull : ∀ a, (f a).sortKeys ≠ .null) :
    SortedApart (Value.ofOption f)
  | none, none, _ => rfl
  | none, some b, hab => absurd hab.symm (hnull b)
  | some a, none, hab => absurd hab (hnull a)
  | some a, some b, hab => h a b hab

/-- The members that the values of one kind have: for each its name, and its value as a
function of what is written. -/
abbrev Fields (α : Type) := List (Text × (α → Value))

namespace Fields

/-- The members with their values for `a`. -/
def members (fs : Fields α) (a : α) : Members := fs.map fun f => (f.1, f.2 a)

def value (fs : Fields α) (a : α) : Value := .obj (fs.members a)

variable {fs : Fields α}

theorem map_fst_members (fs : Fields α) (a : α) :
    (fs.members a).map Prod.fst = fs.map Prod.fst := by
  simp [members, Function.comp_def]

theorem exact (names : (fs.map Prod.fst).Nodup) (a : α) (h : ∀ f ∈ fs, Exact (f.2 a)) :
    Exact (fs.value a) := by
  refine .obj (by rwa [map_fst_members]) fun m hm => ?_
  obtain ⟨f, hf, rfl⟩ := List.mem_map.mp hm
  exact h f hf

theorem sortKeys_value_ne_null (fs : Fields α) (a : α) : (fs.value a).sortKeys ≠ .null := by
  rw [value, sortKeys_obj]
  exact Value.noConfusion

/-- Equal objects have equal members. -/
theorem apply_eq {a b : α} {f : Text × (α → Value)} (h : fs.value a = fs.value b) (hf : f ∈ fs) :
    f.2 a = f.2 b := by
  rw [value, value, Value.obj.injEq, members, members, List.map_inj_left] at h
  exact (Prod.mk.inj (h f hf)).2

end Fields

/-- Members in two orders are the same if their names are, each there once. -/
theorem eq_of_perm_of_names : ∀ {ms ns : Members}, ms.Perm ns →
    ms.map Prod.fst = ns.map Prod.fst → (ms.map Prod.fst).Nodup → ms = ns
  | [], [], _, _, _ => rfl
  | [], _ :: _, _, hnames, _ => by simp at hnames
  | _ :: _, [], _, hnames, _ => by simp at hnames
  | (n, v) :: ms, (n', v') :: ns, hperm, hnames, hnodup => by
    simp only [List.map_cons, List.cons.injEq] at hnames
    obtain ⟨rfl, hrest⟩ := hnames
    obtain ⟨hn, hms⟩ := List.nodup_cons.mp hnodup
    -- the first member of one list is no later member of the other, whose names are others
    have hfirst : (n, v) = (n, v') := by
      rcases List.mem_cons.mp (hperm.subset List.mem_cons_self) with h | h
      · exact h
      · exact absurd (hrest ▸ List.mem_map_of_mem h) hn
    rw [hfirst] at hperm ⊢
    rw [eq_of_perm_of_names ((List.perm_cons _).mp hperm) hrest hms]

/-- **Sorted objects of one kind are told apart** if the values of each member are. -/
theorem Fields.sortedApart {fs : Fields α} (names : (fs.map Prod.fst).Nodup)
    (h : ∀ f ∈ fs, SortedApart f.2) : SortedApart fs.value := by
  intro a b hab
  rw [value, value, sortKeys_obj, sortKeys_obj, Value.obj.injEq] at hab
  have hperm := (perm_sorted (fs.members a)).symm
  rw [hab] at hperm
  have hsorted := eq_of_perm_of_names (hperm.trans (perm_sorted (fs.members b)))
    (by simp [members, Function.comp_def]) (by simpa [members, Function.comp_def] using names)
  simp only [members, List.map_map, Function.comp_def, List.map_inj_left] at hsorted
  have hmembers : fs.members a = fs.members b := by
    refine List.map_congr_left fun f hf => ?_
    rw [h f hf a b (Prod.mk.inj (hsorted f hf)).2]
  rw [value, value, hmembers]

end Json
end ReverseDns
