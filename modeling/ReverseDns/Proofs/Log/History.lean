/-
# The history of a logging session

What the steps of a session have left of its state can be told from their history: the
last setting up gives the level and leaves one handler, and every handler added after it
makes one more (`Log.Session.reached_after`). That also holds of a root logger that keeps
its handlers in a list and, to be set up, removes those of a copy of the list one by one
(`Log.Root.session_after`). A run leaves of each step what the step
leaves in the state that those before it leave (`Log.Session.step_of_run`), and what
converting or looking up gives is the same in every state (`Log.Session.value_step`).

Key definitions: `Log.Session.after`, `Log.Session.Reached`, `Log.Root`, `Log.Step.Faults`.
Key theorems: `Log.Session.Reached.next`, `Log.Session.reached_after`,
`Log.Root.session_after`, `Log.Session.exists_run_iff`, `Log.Session.run_history`.
-/
import ReverseDns.Log.Step
import ReverseDns.Proofs.Log.Line
import ReverseDns.Proofs.Log.Written
import ReverseDns.Proofs.Ptr.Lookup

namespace ReverseDns
namespace Log

namespace Step

def isSetup : Step → Bool
  | .setup _ => true
  | _ => false

def isAddHandler : Step → Bool
  | .addHandler => true
  | _ => false

end Step

open Step (isSetup isAddHandler)

/-! ### The state after steps -/

namespace Session

variable {s : Session} {stamp : Stamp} {as : List Step} {a : Step}

/-- The state after steps, whatever they give and write. -/
def after (s : Session) (as : List Step) : Session := as.foldl next s

theorem after_append (s : Session) (as bs : List Step) :
    s.after (as ++ bs) = (s.after as).after bs :=
  List.foldl_append

theorem after_concat (s : Session) (as : List Step) (a : Step) :
    s.after (as ++ [a]) = (s.after as).next a :=
  s.after_append as [a]

/-- The state by its history from the start, with no handler and at warning level: the
last setting up leaves one handler and decides the level, and each handler added since
makes one more. -/
inductive Reached : List Step → Session → Prop
  | unset {as : List Step} (never : ∀ a ∈ as, a.isSetup = false) :
    Reached as ⟨as.countP isAddHandler, .warning⟩
  | set (before : List Step) (verbose : Bool) {since : List Step}
    (last : ∀ a ∈ since, a.isSetup = false) :
    Reached (before ++ .setup verbose :: since)
      ⟨1 + since.countP isAddHandler, if verbose then .debug else .info⟩

/-- A step that sets nothing up adds a handler or leaves the state as it is. -/
theorem next_of_isSetup_eq_false (h : a.isSetup = false) :
    s.next a = ⟨s.handlers + [a].countP isAddHandler, s.level⟩ := by
  cases a with
  | setup verbose => exact Bool.noConfusion h
  | _ => rfl

theorem after_of_isSetup_eq_false (h : ∀ a ∈ as, a.isSetup = false) :
    s.after as = ⟨s.handlers + as.countP isAddHandler, s.level⟩ := by
  induction as generalizing s with
  | nil => rfl
  | cons a as ih =>
    obtain ⟨ha, has⟩ := List.forall_mem_cons.mp h
    show (s.next a).after as = _
    rw [ih has, next_of_isSetup_eq_false ha, Nat.add_assoc, ← List.countP_append]
    rfl

/-- A history says of one state only. -/
theorem Reached.eq_after (h : Reached as s) : s = after {} as := by
  cases h with
  | unset never =>
    rw [after_of_isSetup_eq_false never, Nat.zero_add]
  | set before verbose last =>
    rw [after_append]
    exact (after_of_isSetup_eq_false (s := setup verbose) last).symm

/-- **A step keeps the state what its history says.** -/
theorem Reached.next (h : Reached as s) (a : Step) : Reached (as ++ [a]) (s.next a) := by
  cases ha : a.isSetup with
  | true =>
    cases a with
    | setup verbose => exact .set as verbose (by simp)
    | _ => exact Bool.noConfusion ha
  | false =>
    have hlast : ∀ {since : List Step}, (∀ b ∈ since, b.isSetup = false) →
        ∀ b ∈ since ++ [a], b.isSetup = false := fun hsince =>
      List.forall_mem_append.mpr ⟨hsince, by simpa using ha⟩
    rw [next_of_isSetup_eq_false ha]
    cases h with
    | unset never =>
      rw [← List.countP_append]
      exact .unset (hlast never)
    | set before verbose last =>
      rw [Nat.add_assoc, ← List.countP_append, List.append_assoc, List.cons_append]
      exact .set before verbose (hlast last)

/-- **The state after any steps is what their history says.** -/
theorem reached_after (as : List Step) : Reached as (after {} as) := by
  induction as using List.reverseRecOn with
  | nil => exact .unset (by simp)
  | append_singleton as a ih =>
    rw [after_concat]
    exact ih.next a

theorem reached_iff : Reached as s ↔ s = after {} as :=
  ⟨Reached.eq_after, fun h => h ▸ reached_after as⟩

end Session

/-! ### Handlers one by one -/

/-- A root logger: its handlers in the order they write, each by the number that it was
made as, how many have been made, and the level. -/
structure Root where
  handlers : List Nat := []
  made : Nat := 0
  level : Level := .warning

namespace Root

variable {r : Root} {a : Step}

/-- Removes handlers one after the other. -/
def remove (r : Root) (names : List Nat) : Root :=
  { r with handlers := names.foldl List.erase r.handlers }

/-- Makes one handler more. -/
def add (r : Root) : Root := { r with handlers := r.handlers ++ [r.made], made := r.made + 1 }

/-- Sets the level, removes every handler that a copy of the list of handlers names, and
makes one. -/
def setup (r : Root) (verbose : Bool) : Root :=
  ({ r with level := if verbose then .debug else .info }.remove r.handlers).add

def next (r : Root) : Step → Root
  | .setup verbose => r.setup verbose
  | .addHandler => r.add
  | _ => r

/-- What the handlers write of a record, one after the other, the clock held still while
they do. -/
def emit (r : Root) (stamp : Stamp) (record : Record) : List Text :=
  if r.level.rank ≤ record.level.rank then r.handlers.map fun _ => record.line stamp else []

/-- The number of handlers and the level. -/
def session (r : Root) : Session := ⟨r.handlers.length, r.level⟩

/-- Nothing is left when all that a copy of the list names is removed. -/
theorem foldl_erase_self (names : List Nat) : names.foldl List.erase names = [] := by
  induction names with
  | nil => rfl
  | cons name names ih => rw [List.foldl_cons, List.erase_cons_head, ih]

theorem handlers_setup (r : Root) (verbose : Bool) : (r.setup verbose).handlers = [r.made] := by
  show r.handlers.foldl List.erase r.handlers ++ [r.made] = [r.made]
  rw [foldl_erase_self, List.nil_append]

theorem session_next (r : Root) (a : Step) : (r.next a).session = r.session.next a := by
  cases a with
  | setup verbose =>
    show Session.mk (r.setup verbose).handlers.length _ = _
    rw [handlers_setup]
    rfl
  | addHandler =>
    show Session.mk (r.handlers ++ [r.made]).length r.level = _
    rw [List.length_append]
    rfl
  | _ => rfl

/-- **The list has as many handlers as are counted**, however many there were before. -/
theorem session_after (as : List Step) : (as.foldl next {}).session = Session.after {} as := by
  induction as using List.reverseRecOn with
  | nil => rfl
  | append_singleton as a ih =>
    rw [Session.after_concat, List.foldl_append, List.foldl_cons, List.foldl_nil, session_next, ih]

theorem emit_eq (r : Root) (stamp : Stamp) (record : Record) :
    r.emit stamp record = r.session.linesOf stamp record := by
  unfold emit Session.linesOf Session.enabled
  by_cases h : r.level.rank ≤ record.level.rank
  · simp [session, h]
  · simp [session, h]

end Root

/-- The steps that fault in a state: a lookup that does, and a record that gets past the
level and cannot be made. -/
inductive Step.Faults (s : Session) : Step → Prop
  | lookup {resolver : Ptr.Resolver} {name : Text} {f : Fault}
    (outcome : (Ptr.lookup resolver name).outcome = .error f) : Faults s (.lookup resolver name)
  | clash {r : Record} (enabled : s.enabled r.level = true) (clash : r.clash? ≠ none) :
    Faults s (.log r)

namespace Step

variable {a : Step} {v : Value} {r : Record} {rs : List Record}

/-- The effect of a lookup that ends with a result. -/
theorem effect_lookup {resolver : Ptr.Resolver} {name : Text} {result : Ptr.Result}
    (h : (Ptr.lookup resolver name).outcome = .ok result) :
    (lookup resolver name).effect = .ok (.result result, (Ptr.lookup resolver name).records) := by
  rw [effect, h]
  rfl

/-- Only a record that is given can clash, not one that converting or looking up makes. -/
theorem clash?_of_mem_effect (h : ∀ r, a ≠ .log r) (ha : a.effect = .ok (v, rs)) (hr : r ∈ rs) :
    r.clash? = none := by
  cases a with
  | setup verbose =>
    obtain ⟨-, rfl⟩ := Prod.mk.inj (Except.ok.inj ha)
    simp at hr
  | addHandler =>
    obtain ⟨-, rfl⟩ := Prod.mk.inj (Except.ok.inj ha)
    simp at hr
  | log r => exact absurd rfl (h r)
  | convert input durationMs =>
    obtain ⟨-, rfl⟩ := Prod.mk.inj (Except.ok.inj ha)
    rw [List.mem_singleton.mp hr]
    exact Record.clash?_conversion _ _ _ _ _
  | lookup resolver name =>
    cases houtcome : (Ptr.lookup resolver name).outcome with
    | error f => simp [effect, houtcome, Except.map] at ha
    | ok result =>
      rw [effect_lookup houtcome] at ha
      obtain ⟨-, rfl⟩ := Prod.mk.inj (Except.ok.inj ha)
      exact (Ptr.ofLookup_of_mem_records hr).clash?_eq_none

end Step

namespace Session

open Step (effect_lookup clash?_of_mem_effect)

variable {s : Session} {stamp : Stamp} {as : List Step} {a : Step} {r : Record} {rs : List Record}
  {lines : List Text} {o : Step.Outcome} {outs : List Step.Outcome}

/-! ### One step -/

theorem step_eq_ok_iff : s.step stamp a = .ok o ↔ ∃ rs, a.effect = .ok (o.value, rs) ∧
    (s.next a).writeAll stamp rs = .ok o.lines ∧ o.session = s.next a := by
  unfold step
  constructor
  · intro h
    cases heffect : a.effect with
    | error f => simp [heffect, bind, Except.bind] at h
    | ok effect =>
      obtain ⟨v, rs⟩ := effect
      cases hwrite : (s.next a).writeAll stamp rs with
      | error f => simp [heffect, hwrite, bind, Except.bind] at h
      | ok lines =>
        simp only [heffect, hwrite, bind, Except.bind, pure, Except.pure] at h
        obtain rfl := Except.ok.inj h
        exact ⟨rs, rfl, hwrite, rfl⟩
  · rintro ⟨rs, heffect, hwrite, hsession⟩
    simp only [heffect, hwrite, bind, Except.bind, pure, Except.pure]
    rw [← hsession]

/-- A step whose records can be made leads to an outcome with its value. -/
theorem exists_step (s : Session) (stamp : Stamp) {v : Step.Value} (ha : a.effect = .ok (v, rs))
    (hrs : ∀ r ∈ rs, (s.next a).enabled r.level = true → r.clash? = none) :
    ∃ o, s.step stamp a = .ok o ∧ o.value = v := by
  obtain ⟨lines, hlines⟩ := exists_writeAll_iff.mpr hrs
  exact ⟨⟨v, lines, s.next a⟩, step_eq_ok_iff.mpr ⟨rs, ha, hlines, rfl⟩, rfl⟩

/-- **A step leads to an outcome unless it is one of those that fault.** -/
theorem exists_step_iff (stamp : Stamp) : (∃ o, s.step stamp a = .ok o) ↔ ¬ a.Faults s := by
  constructor
  · rintro ⟨o, h⟩ hfault
    obtain ⟨rs, heffect, hwrite, -⟩ := step_eq_ok_iff.mp h
    cases hfault with
    | lookup outcome => simp [Step.effect, outcome, Except.map] at heffect
    | clash enabled clash =>
      obtain ⟨-, rfl⟩ := Prod.mk.inj (Except.ok.inj heffect)
      exact clash (exists_writeAll_iff.mp ⟨_, hwrite⟩ _ List.mem_cons_self enabled)
  · intro hfault
    suffices ∃ v rs, a.effect = .ok (v, rs) ∧
        ∀ r ∈ rs, (s.next a).enabled r.level = true → r.clash? = none by
      obtain ⟨v, rs, ha, hrs⟩ := this
      exact (s.exists_step stamp ha hrs).imp fun _ => And.left
    -- Apart from a fault in a lookup, only the record of a `log` can be in the way.
    have hother : ∀ {v rs}, (∀ r, a ≠ .log r) → a.effect = .ok (v, rs) →
        ∃ v rs, a.effect = .ok (v, rs) ∧
          ∀ r ∈ rs, (s.next a).enabled r.level = true → r.clash? = none := fun hlog ha =>
      ⟨_, _, ha, fun _ hr _ => clash?_of_mem_effect hlog ha hr⟩
    cases a with
    | setup verbose => exact hother nofun rfl
    | addHandler => exact hother nofun rfl
    | log r =>
      refine ⟨.nothing, [r], rfl, List.forall_mem_singleton.mpr fun henabled => ?_⟩
      by_contra hclash
      exact hfault (.clash henabled hclash)
    | convert input durationMs => exact hother nofun rfl
    | lookup resolver name =>
      cases houtcome : (Ptr.lookup resolver name).outcome with
      | error f => exact absurd (.lookup houtcome) hfault
      | ok result => exact hother nofun (effect_lookup houtcome)

/-- **What a step gives is the same in every state of logging**, a fault too, unless the
step is a record that may clash. -/
theorem value_step (s : Session) (stamp : Stamp) (h : ∀ r, a ≠ .log r) :
    (s.step stamp a).map Step.Outcome.value = a.effect.map Prod.fst := by
  cases heffect : a.effect with
  | error f => simp [step, heffect, Except.map, bind, Except.bind]
  | ok effect =>
    obtain ⟨v, rs⟩ := effect
    obtain ⟨o, ho, hvalue⟩ := s.exists_step stamp heffect fun r hr _ =>
      clash?_of_mem_effect h heffect hr
    rw [ho]
    exact congrArg Except.ok hvalue

theorem value_step_lookup (s : Session) (stamp : Stamp) (resolver : Ptr.Resolver) (name : Text) :
    (s.step stamp (.lookup resolver name)).map Step.Outcome.value =
      (Ptr.lookup resolver name).outcome.map .result := by
  rw [s.value_step (a := .lookup resolver name) stamp nofun, Step.effect]
  cases (Ptr.lookup resolver name).outcome <;> rfl

/-! ### Runs -/

theorem run_cons : s.run stamp (a :: as) = .ok outs ↔ ∃ o rest, s.step stamp a = .ok o ∧
    (s.next a).run stamp as = .ok rest ∧ outs = o :: rest := by
  rw [run]
  cases hstep : s.step stamp a with
  | error f => simp [bind, Except.bind]
  | ok o =>
    obtain ⟨-, -, -, hsession⟩ := step_eq_ok_iff.mp hstep
    rw [← hsession]
    cases hrun : o.session.run stamp as with
    | error f => simp [hrun, bind, Except.bind]
    | ok rest => simp [hrun, bind, Except.bind, pure, Except.pure, eq_comm]

/-- **A run comes to its end** unless one of its steps faults in the state that those
before it leave. -/
theorem exists_run_iff : (∃ outs, s.run stamp as = .ok outs) ↔
    ∀ (i : Nat) (a : Step), as[i]? = some a → ¬ a.Faults (s.after (as.take i)) := by
  induction as generalizing s with
  | nil => simp [run]
  | cons a as ih =>
    constructor
    · rintro ⟨outs, h⟩ i b hb
      obtain ⟨o, rest, hstep, hrun, rfl⟩ := run_cons.mp h
      cases i with
      | zero =>
        obtain rfl : a = b := Option.some.inj hb
        exact (exists_step_iff stamp).mp ⟨o, hstep⟩
      | succ i => exact ih.mp ⟨rest, hrun⟩ i b hb
    · intro h
      obtain ⟨o, hstep⟩ := (exists_step_iff stamp).mpr (h 0 a rfl)
      obtain ⟨rest, hrun⟩ := ih.mpr fun i b hb => h (i + 1) b hb
      exact ⟨o :: rest, run_cons.mpr ⟨o, rest, hstep, hrun, rfl⟩⟩

theorem length_of_run (h : s.run stamp as = .ok outs) : outs.length = as.length := by
  induction as generalizing s outs with
  | nil =>
    obtain rfl : [] = outs := Except.ok.inj h
    rfl
  | cons a as ih =>
    obtain ⟨o, rest, -, hrun, rfl⟩ := run_cons.mp h
    rw [List.length_cons, List.length_cons, ih hrun]

/-- **What a run leaves of a step is what the step leaves** in the state that those before
it leave. -/
theorem step_of_run (h : s.run stamp as = .ok outs) {i : Nat} (ha : as[i]? = some a)
    (ho : outs[i]? = some o) : (s.after (as.take i)).step stamp a = .ok o := by
  induction as generalizing s outs i with
  | nil => simp at ha
  | cons b as ih =>
    obtain ⟨first, rest, hstep, hrun, rfl⟩ := run_cons.mp h
    cases i with
    | zero =>
      obtain rfl : b = a := Option.some.inj ha
      obtain rfl : first = o := Option.some.inj ho
      exact hstep
    | succ i => exact ih hrun ha ho

/-! ### The whole history -/

/-- What is left of a step that others from the start came before: the state that its
history says, a value that the step alone decides, and of each record that gets past the
level as many copies of its line as there are handlers, if there are any, and nothing of
the others. -/
structure Follows (stamp : Stamp) (before : List Step) (a : Step) (o : Step.Outcome) : Prop where
  reached : Reached (before ++ [a]) o.session
  effect : ∃ rs, a.effect = .ok (o.value, rs) ∧
    (0 < o.session.handlers → o.lines = rs.flatMap (o.session.linesOf stamp))
  visible : 0 < o.session.handlers → ∀ line ∈ o.lines, ∀ c ∈ line, Text.IsVisible c

theorem isVisible_linesOf {line : Text} (h : line ∈ s.linesOf stamp r) :
    ∀ c ∈ line, Text.IsVisible c := by
  unfold linesOf at h
  split at h
  · rw [List.eq_of_mem_replicate h]
    exact r.isVisible_line stamp
  · simp at h

/-- **One step of a history.** -/
theorem follows_of_step (h : (after {} as).step stamp a = .ok o) : Follows stamp as a o := by
  obtain ⟨rs, heffect, hwrite, hsession⟩ := step_eq_ok_iff.mp h
  have hlines : 0 < o.session.handlers → o.lines = rs.flatMap (o.session.linesOf stamp) := by
    rw [hsession]
    exact fun hs => lines_of_writeAll hs hwrite
  refine ⟨hsession ▸ (reached_after as).next a, ⟨rs, heffect, hlines⟩, fun hs line hline => ?_⟩
  rw [hlines hs] at hline
  obtain ⟨r, -, hr⟩ := List.mem_flatMap.mp hline
  exact isVisible_linesOf hr

/-- **The history of a session.** Whatever steps are taken from the start, the number of
handlers and the level are what the history of the steps says, and a root logger with a
list of handlers has as many and writes the same. The run comes to its end unless one of
its steps faults in the state that it finds, and then each step leaves what `Follows`
says. What converting or looking up gives is the same in every state. -/
theorem run_history (stamp : Stamp) (as : List Step) :
    (∀ s, Reached as s ↔ s = after {} as) ∧
      (as.foldl Root.next {}).session = after {} as ∧
      (∀ r, (as.foldl Root.next {}).emit stamp r = (after {} as).linesOf stamp r) ∧
      ((∃ outs, run {} stamp as = .ok outs) ↔
        ∀ (i : Nat) (a : Step), as[i]? = some a → ¬ a.Faults (after {} (as.take i))) ∧
      (∀ outs, run {} stamp as = .ok outs → outs.length = as.length ∧
        ∀ (i : Nat) (a : Step) (o : Step.Outcome), as[i]? = some a → outs[i]? = some o →
          Follows stamp (as.take i) a o) ∧
      ∀ (s : Session) (stamp' : Stamp),
        (∀ input durationMs, (s.step stamp' (.convert input durationMs)).map Step.Outcome.value =
          .ok (.entry (Entry.ofInput input))) ∧
        ∀ resolver name, (s.step stamp' (.lookup resolver name)).map Step.Outcome.value =
          (Ptr.lookup resolver name).outcome.map .result := by
  have hroot := Root.session_after as
  refine ⟨fun s => reached_iff, hroot, fun r => ?_, exists_run_iff, fun outs h => ?_,
    fun s stamp' => ⟨fun _ _ => s.value_step stamp' nofun, s.value_step_lookup stamp'⟩⟩
  · rw [Root.emit_eq, hroot]
  · exact ⟨length_of_run h, fun i a o ha ho => follows_of_step (step_of_run h ha ho)⟩

/-- Handlers added before a setting up are gone after it, and one added since makes two:
the record of a run is there twice. -/
theorem run_history_replaced_handlers :
    let r : Record := .summary 1 1 0 0 (.int 0)
    let stamp : Stamp := { time := { year := 2025, month := 12, day := 19 }, run := "RUN".toList }
    let as : List Step := [.addHandler, .addHandler, .setup false, .addHandler, .log r]
    ∃ outs o, run {} stamp as = .ok outs ∧ outs[4]? = some o ∧ o.session = ⟨2, .info⟩ ∧
      o.lines = [r.line stamp, r.line stamp] := by
  intro r stamp as
  obtain ⟨-, -, -, hruns, hfollows, -⟩ := run_history stamp as
  have hfaults : ∀ (i : Nat) (a : Step), as[i]? = some a → ¬ a.Faults (after {} (as.take i)) := by
    rintro i a ha (⟨outcome⟩ | ⟨-, clash⟩)
    · exact absurd (List.mem_of_getElem? ha) (by simp [as])
    · rename_i r'
      obtain rfl : r' = r := by simpa [as] using List.mem_of_getElem? ha
      exact clash (Record.clash?_summary _ _ _ _ _)
  obtain ⟨outs, houts⟩ := hruns.mpr hfaults
  obtain ⟨hlength, hsteps⟩ := hfollows outs houts
  have hfour : 4 < outs.length := hlength.symm ▸ (by decide : 4 < as.length)
  have hlast : outs[4]? = some outs[4] := List.getElem?_eq_getElem hfour
  obtain ⟨hreached, ⟨rs, heffect, hlines⟩, -⟩ := hsteps 4 (.log r) _ rfl hlast
  have hsession : outs[4].session = ⟨2, .info⟩ := hreached.eq_after
  obtain ⟨-, rfl⟩ := Prod.mk.inj (Except.ok.inj heffect)
  refine ⟨outs, outs[4], houts, hlast, hsession, ?_⟩
  rw [hlines (hsession ▸ Nat.two_pos), hsession]
  rfl

end Session
end Log
end ReverseDns
