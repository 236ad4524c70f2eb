/-
# Every schedule of the lookups

A batch in progress has tasks that wait in the queue, tasks that run, tasks that
have ended and tasks whose results are attached. At any time a worker may take
the next task of the queue if there is room, a running lookup may end, or the
result of any ended lookup may be attached, so a run is any interleaving of these
steps. What the steps keep (`Sound`) is that no task is lost or doubled and that
entries, queries and records are those of the tasks that have got so far; each
step leaves one less to be taken, and one can be taken until all results are
attached. So every run can be completed, and a complete one leaves what depends
on the tasks alone.

Key definitions: `Batch.Progress`, `Batch.Progress.Step`, `Batch.Progress.Sound`.
Key theorems: `Batch.Progress.Step.sound`, `Batch.Progress.exists_done`,
`Batch.Progress.Sound.of_done`.
-/
import Mathlib.Data.List.Perm.Basic
import Mathlib.Logic.Relation
import Mathlib.Tactic.ByContra
import ReverseDns.Proofs.Batch.Task

namespace ReverseDns
namespace Batch

/-- What is logged when the result of a lookup is attached. -/
def faultRecords (t : Task) (l : Ptr.Lookup) : List Log.Record :=
  match l.outcome with
  | .ok _ => []
  | .error f => [.lookupFault t.name f]

theorem finishRecords_eq (t : Task) (l : Ptr.Lookup) :
    finishRecords t l = l.records ++ faultRecords t l := by
  unfold finishRecords faultRecords
  cases l.outcome <;> simp

/-- A batch in progress: its tasks by how far they have got, and the entries,
queries and records so far. -/
structure Progress where
  waiting : List Task
  running : List Task := []
  ended : List Task := []
  attached : List Task := []
  entries : List Entry
  queries : List Ptr.Query := []
  records : List Log.Record

namespace Progress

/-- The batch before its first lookup, all inputs converted. -/
def initial (timeout : Int) (elapsed : Nat → Int) (entries : List Entry) : Progress where
  waiting := tasks timeout 0 entries
  entries := entries
  records := conversions elapsed entries

/-- All results are attached. -/
def Done (p : Progress) : Prop := p.waiting = [] ∧ p.running = [] ∧ p.ended = []

/-- How many steps there are still to take: three for each task. -/
def left (p : Progress) : Nat := 3 * p.waiting.length + 2 * p.running.length + p.ended.length

/-- One step of a batch with `width` workers, `lookup` saying how each lookup
goes. -/
inductive Step (width : Nat) (lookup : Task → Ptr.Lookup) : Progress → Progress → Prop
  /-- A free worker takes the next task of the queue. -/
  | start {p : Progress} {t : Task} {rest : List Task} (next : p.waiting = t :: rest)
      (room : p.running.length < width) :
      Step width lookup p { p with waiting := rest, running := t :: p.running }
  /-- A running lookup ends: its queries are made and its records logged. -/
  | finish {p : Progress} {t : Task} (mem : t ∈ p.running) :
      Step width lookup p
        { p with
          running := p.running.erase t
          ended := t :: p.ended
          queries := p.queries ++ (lookup t).queries
          records := p.records ++ (lookup t).records }
  /-- The result of an ended lookup is attached, and a fault logged. -/
  | attach {p : Progress} {t : Task} (mem : t ∈ p.ended) :
      Step width lookup p
        { p with
          ended := p.ended.erase t
          attached := p.attached ++ [t]
          entries := Batch.attach p.entries t (lookup t)
          records := p.records ++ faultRecords t (lookup t) }

/-- Any number of steps. -/
abbrev Run (width : Nat) (lookup : Task → Ptr.Lookup) : Progress → Progress → Prop :=
  Relation.ReflTransGen (Step width lookup)

/-- What every step keeps, `es` being the entries before the first. Each task is
in one place; the entries are those of the results attached so far; queries and
records are those of the lookups that have ended, in some order. -/
structure Sound (timeout : Int) (lookup : Task → Ptr.Lookup) (elapsed : Nat → Int)
    (es : List Entry) (p : Progress) : Prop where
  tasks : (p.waiting ++ (p.running ++ (p.ended ++ p.attached))).Perm (tasks timeout 0 es)
  entries : p.entries = p.attached.foldl (fun es t => Batch.attach es t (lookup t)) es
  queries : p.queries.Perm ((p.ended ++ p.attached).flatMap fun t => (lookup t).queries)
  records : p.records.Perm (conversions elapsed es ++
    ((p.ended ++ p.attached).flatMap (fun t => (lookup t).records) ++
      p.attached.flatMap fun t => faultRecords t (lookup t)))

variable {width : Nat} {timeout : Int} {lookup : Task → Ptr.Lookup} {elapsed : Nat → Int}
  {es : List Entry} {p q : Progress}

theorem sound_initial (timeout : Int) (lookup : Task → Ptr.Lookup) (elapsed : Nat → Int)
    (es : List Entry) : Sound timeout lookup elapsed es (initial timeout elapsed es) where
  tasks := by simp [initial]
  entries := rfl
  queries := by simp [initial]
  records := by simp [initial]

/-! ### A step keeps the batch sound -/

section

variable {t : Task} {ts : List Task}

/-- A task that moves to the front of the next list is still there. -/
theorem perm_erase_cons (us : List Task) (h : t ∈ ts) : (ts.erase t ++ t :: us).Perm (ts ++ us) :=
  List.perm_middle.trans ((List.perm_cons_erase h).symm.append_right us)

/-- So is one that moves to its end. -/
theorem perm_erase_concat (us : List Task) (h : t ∈ ts) : (ts.erase t ++ (us ++ [t])).Perm (ts ++ us) :=
  (List.perm_append_singleton t us).append_left _ |>.trans (perm_erase_cons us h)

end

/-- **A step keeps the batch sound.** -/
theorem Step.sound (h : Step width lookup p q) (hp : Sound timeout lookup elapsed es p) :
    Sound timeout lookup elapsed es q := by
  cases h with
  | @start t rest next room =>
    have hw := hp.tasks
    rw [next] at hw
    refine ⟨?_, hp.entries, hp.queries, hp.records⟩
    exact List.perm_middle.trans hw
  | @finish t mem =>
    -- What the lookup leaves is added at the end, while its task goes to the front of the ended.
    refine ⟨?_, hp.entries, ?_, ?_⟩
    · exact ((perm_erase_cons _ mem).append_left _).trans hp.tasks
    · exact (hp.queries.append_right _).trans List.perm_append_comm
    · refine (hp.records.append_right _).trans ?_
      rw [List.append_assoc]
      refine List.Perm.append_left _ (List.perm_append_comm.trans ?_)
      rw [List.cons_append, List.flatMap_cons, List.append_assoc]
  | @attach t mem =>
    -- Ended and attached tasks together are the same as before, so only the fault is new.
    have hends := perm_erase_concat p.attached mem
    refine ⟨?_, ?_, ?_, ?_⟩
    · exact ((hends.append_left _).append_left _).trans hp.tasks
    · rw [List.foldl_append, List.foldl_cons, List.foldl_nil, ← hp.entries]
    · exact hp.queries.trans (hends.symm.flatMap_right _)
    · have hfaults : (p.attached ++ [t]).flatMap (fun t => faultRecords t (lookup t)) =
          p.attached.flatMap (fun t => faultRecords t (lookup t)) ++ faultRecords t (lookup t) := by
        rw [List.flatMap_append, List.flatMap_singleton]
      refine (hp.records.append_right _).trans ?_
      dsimp only
      rw [hfaults, List.append_assoc, List.append_assoc]
      exact ((hends.symm.flatMap_right _).append_right _).append_left _

/-- **So does a run.** -/
theorem Sound.of_run (h : Run width lookup p q) (hp : Sound timeout lookup elapsed es p) :
    Sound timeout lookup elapsed es q := by
  induction h with
  | refl => exact hp
  | tail _ step ih => exact step.sound ih

/-! ### A run can be completed -/

/-- Each step leaves one less to take. -/
theorem Step.left (h : Step width lookup p q) : q.left + 1 = p.left := by
  cases h with
  | start next _ =>
    simp only [Progress.left, next, List.length_cons]
    omega
  | finish mem =>
    have hpos := List.length_pos_of_mem mem
    simp only [Progress.left, List.length_cons, List.length_erase_of_mem mem]
    omega
  | attach mem =>
    have hpos := List.length_pos_of_mem mem
    simp only [Progress.left, List.length_erase_of_mem mem]
    omega

/-- Until all results are attached, a step can be taken. -/
theorem exists_step (lookup : Task → Ptr.Lookup) (hw : 0 < width) (h : ¬ p.Done) :
    ∃ q, Step width lookup p q := by
  cases he : p.ended with
  | cons t ts => exact ⟨_, .attach (t := t) (by rw [he]; exact List.mem_cons_self)⟩
  | nil =>
    cases hr : p.running with
    | cons t ts => exact ⟨_, .finish (t := t) (by rw [hr]; exact List.mem_cons_self)⟩
    | nil =>
      cases hq : p.waiting with
      | cons t ts => exact ⟨_, .start hq (by rw [hr]; exact hw)⟩
      | nil => exact absurd ⟨hq, hr, he⟩ h

/-- **Every run can be completed**, in exactly as many steps as are left. -/
theorem exists_done (hw : 0 < width) (p : Progress) : ∃ q, Run width lookup p q ∧ q.Done := by
  induction hn : p.left generalizing p with
  | zero =>
    by_contra hno
    obtain ⟨q, hq⟩ := exists_step lookup hw fun hd => hno ⟨p, .refl, hd⟩
    have := hq.left
    omega
  | succ n ih =>
    by_cases hd : p.Done
    · exact ⟨p, .refl, hd⟩
    · obtain ⟨q, hq⟩ := exists_step lookup hw hd
      obtain ⟨r, hr, hdone⟩ := ih q (by have := hq.left; omega)
      exact ⟨r, .head hq hr, hdone⟩

/-! ### What a complete run leaves -/

theorem Sound.attached_perm (hp : Sound timeout lookup elapsed es p) (hd : p.Done) :
    p.attached.Perm (Batch.tasks timeout 0 es) := by
  obtain ⟨hw, hr, he⟩ := hd
  have h := hp.tasks
  rwa [hw, hr, he] at h

/-- **A complete run leaves what depends on the tasks alone**: each entry has the
result of its own task, and the queries and records are those of all tasks. -/
theorem Sound.of_done (hp : Sound timeout lookup elapsed es p) (hd : p.Done) :
    p.entries = es.mapIdx (resolved timeout lookup) ∧
      p.queries.Perm ((Batch.tasks timeout 0 es).flatMap fun t => (lookup t).queries) ∧
      p.records.Perm (conversions elapsed es ++
        (Batch.tasks timeout 0 es).flatMap fun t => finishRecords t (lookup t)) := by
  have hperm := hp.attached_perm hd
  have hends : p.ended ++ p.attached = p.attached := by rw [hd.2.2, List.nil_append]
  refine ⟨?_, ?_, ?_⟩
  · rw [hp.entries, foldl_attach_eq_mapIdx hperm]
  · have h := hp.queries
    rw [hends] at h
    exact h.trans (hperm.flatMap_right _)
  · have h := hp.records
    rw [hends] at h
    refine h.trans (List.Perm.append_left _ ?_)
    simp only [finishRecords_eq]
    exact ((hperm.flatMap_right _).append (hperm.flatMap_right _)).trans
      (List.flatMap_append_perm _ _ _)

end Progress
end Batch
end ReverseDns
