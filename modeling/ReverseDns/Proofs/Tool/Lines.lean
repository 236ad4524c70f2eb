/-
# Arguments and lines are two ways in

A run takes its inputs from its arguments as they are, or from the lines of its
input with white space taken off. Lines that hold the arguments, with blank lines
anywhere between them, give the same inputs but for that white space
(`Tool.inputs_of_spread`), and a conversion disregards it
(`Entry.ofInput_trim`). So both runs look up the same names and end with the same
exit code, and their reports differ in the inputs alone
(`Tool.lines_stand_for_arguments`).

Key definitions: `Entry.trimmed`, `Report.trimmed`, `Tool.Spread`,
`Tool.AlikeButInputs`.
Key theorems: `Entry.ofInput_trim`, `Batch.finalEntries_map_trim`,
`Tool.inputs_of_spread`, `Tool.publish_cases`, `Tool.lines_stand_for_arguments`.
-/
import ReverseDns.Proofs.Report.Totals
import ReverseDns.Proofs.Text.Trim
import ReverseDns.Proofs.Tool.Run

namespace ReverseDns

/-! ### Entries of trimmed inputs -/

namespace Entry

/-- The entry with white space taken off its input, and nothing else changed. -/
def trimmed (e : Entry) : Entry := { e with input := Text.trim e.input }

/-- **White space around an input shows in no other field.** -/
theorem ofInput_trim (v : Text) : ofInput (Text.trim v) = { ofInput v with input := Text.trim v } := by
  have htrim : Text.trim (Text.trim v) = Text.trim v := Text.trimOf_trimOf Text.isBlank v
  rw [ofInput_eq_ofAttempt, ofInput_eq_ofAttempt v, htrim]
  cases Direction.attempt (Text.trim v) (Direction.detect (Text.trim v)) <;> rfl

theorem ofInput_trim_eq_trimmed (v : Text) : ofInput (Text.trim v) = (ofInput v).trimmed := by
  rw [ofInput_trim, trimmed, input_ofInput]

end Entry

/-! ### Batches of trimmed inputs -/

namespace Batch

variable {timeout : Int} {lookup : Task → Ptr.Lookup}

/-- The lookup of an entry is not about its input. -/
theorem task?_trimmed (timeout : Int) (index : Nat) (e : Entry) :
    task? timeout index e.trimmed = task? timeout index e := rfl

theorem tasks_map_trimmed (timeout : Int) : ∀ (index : Nat) (es : List Entry),
    tasks timeout index (es.map Entry.trimmed) = tasks timeout index es
  | _, [] => rfl
  | index, e :: es => by
    rw [List.map_cons, tasks, tasks, task?_trimmed, tasks_map_trimmed timeout (index + 1) es]

theorem resolved_trimmed (index : Nat) (e : Entry) :
    resolved timeout lookup index e.trimmed = (resolved timeout lookup index e).trimmed := by
  unfold resolved
  rw [task?_trimmed]
  cases task? timeout index e <;> rfl

theorem mapIdx_resolved_trimmed (es : List Entry) :
    (es.map Entry.trimmed).mapIdx (resolved timeout lookup) =
      (es.mapIdx (resolved timeout lookup)).map Entry.trimmed := by
  apply List.ext_getElem?
  intro i
  rw [List.getElem?_mapIdx, List.getElem?_map, List.getElem?_map, List.getElem?_mapIdx]
  cases es[i]? with
  | none => rfl
  | some e => exact congrArg some (resolved_trimmed i e)

variable {options : Options} {inputs : List Text}

theorem map_ofInput_trim (inputs : List Text) :
    (inputs.map Text.trim).map Entry.ofInput = (inputs.map Entry.ofInput).map Entry.trimmed := by
  rw [List.map_map, List.map_map]
  exact List.map_congr_left fun v _ => Entry.ofInput_trim_eq_trimmed v

/-- Trimmed inputs make the same lookups. -/
theorem pending_map_trim : pending options (inputs.map Text.trim) = pending options inputs := by
  unfold pending
  rw [map_ofInput_trim, tasks_map_trimmed]

/-- Trimmed inputs have the same entries but for the inputs. -/
theorem finalEntries_map_trim : finalEntries options lookup (inputs.map Text.trim) =
    (finalEntries options lookup inputs).map Entry.trimmed := by
  unfold finalEntries
  rw [map_ofInput_trim]
  split
  · exact mapIdx_resolved_trimmed _
  · rfl

end Batch

/-! ### Reports of trimmed inputs -/

namespace Report

/-- The report with white space taken off the inputs of its entries. -/
def trimmed (r : Report) : Report := { r with entries := r.entries.map Entry.trimmed }

theorem failed_trimmed (r : Report) : r.trimmed.failed = r.failed := by
  have htotal : r.trimmed.total = r.total := List.length_map _
  have hconverted : r.trimmed.converted = r.converted := by
    unfold converted trimmed
    rw [List.countP_map]
    rfl
  unfold failed
  rw [htotal, hconverted]

end Report

namespace Tool

/-! ### Lines that hold the arguments -/

/-- Lines that hold arguments in their order, one to a line, with any number of
blank lines before, between and after them. -/
inductive Spread : List Text → List Text → Prop
  | nil : Spread [] []
  | argument (a : Text) {args lines : List Text} (h : Spread args lines) :
      Spread (a :: args) (a :: lines)
  | blank {b : Text} (hb : Text.AllBlank Text.isBlank b) (hline : '\n' ∉ b)
      {args lines : List Text} (h : Spread args lines) : Spread args (b :: lines)

variable {args lines : List Text}

theorem Spread.newline_notMem (h : Spread args lines) (hargs : ∀ a ∈ args, '\n' ∉ a) :
    ∀ l ∈ lines, '\n' ∉ l := by
  induction h with
  | nil => simp
  | argument a h ih =>
    obtain ⟨ha, hargs⟩ := List.forall_mem_cons.mp hargs
    exact List.forall_mem_cons.mpr ⟨ha, ih hargs⟩
  | blank hb hline h ih => exact List.forall_mem_cons.mpr ⟨hline, ih hargs⟩

theorem Spread.ne_nil (h : Spread args lines) (hne : args ≠ []) : lines ≠ [] := by
  cases h with
  | nil => exact absurd rfl hne
  | argument => simp
  | blank => simp

/-- What is left of the lines without blank ones are the arguments, trimmed. -/
theorem Spread.filter_map_trim (h : Spread args lines) (hargs : ∀ a ∈ args, Text.trim a ≠ []) :
    (lines.map Text.trim).filter (· ≠ []) = args.map Text.trim := by
  induction h with
  | nil => rfl
  | argument a h ih =>
    obtain ⟨ha, hargs⟩ := List.forall_mem_cons.mp hargs
    rw [List.map_cons, List.filter_cons_of_pos (by simpa using ha), ih hargs, List.map_cons]
  | blank hb hline h ih =>
    have hempty : Text.trim _ = [] := Text.trimOf_eq_nil_iff.mpr hb
    rw [List.map_cons, hempty, List.filter_cons_of_neg (by simp), ih hargs]

/-- **The inputs on the lines are the arguments, trimmed**, whether or not the
last line ends. -/
theorem inputs_of_spread {final : Text} (hne : args ≠ [])
    (hargs : ∀ a ∈ args, Text.trim a ≠ [] ∧ '\n' ∉ a) (h : Spread args lines)
    (hfinal : final = [] ∨ final = ['\n']) :
    inputs [] (Text.join ['\n'] lines ++ final) = args.map Text.trim := by
  have hsplit : (Text.join ['\n'] lines).splitOn '\n' = lines :=
    Text.splitOn_join (h.newline_notMem fun a ha => (hargs a ha).2) (h.ne_nil hne)
  have hlines := h.filter_map_trim fun a ha => (hargs a ha).1
  unfold inputs
  rw [if_neg (by simp)]
  rcases hfinal with rfl | rfl
  · rw [List.append_nil, hsplit, hlines]
  · have hlast : ([] : Text).splitOn '\n' = [[]] := rfl
    rw [Text.splitOn_append_cons, hsplit, hlast, List.map_append, List.filter_append, hlines]
    exact List.append_nil _

/-! ### Two runs -/

variable {s : Setting} {c : Config}

/-- Whether a report can be made and written does not depend on its entries. -/
theorem publish_cases (s : Setting) (c : Config) :
    (∃ f, ∀ es, publish s c es = .error f) ∨
      ∃ ms, ∀ es, publish s c es =
        .ok (reportOn s ms c es, (reportOn s ms c es).layout c.format ++ ['\n']) := by
  cases hms : s.clock.milliseconds with
  | error f =>
    refine .inl ⟨f, fun es => ?_⟩
    unfold publish report
    rw [hms]
    rfl
  | ok ms =>
    simp only [publish_eq hms, write]
    cases s.outputFault with
    | none => exact .inr ⟨ms, fun es => rfl⟩
    | some f => exact .inl ⟨f, fun es => rfl⟩

/-- The same run with its inputs on the lines of its input, and with its lookups
finishing in another order. -/
def Setting.reading (s : Setting) (input : Text) (choices : List Nat) : Setting :=
  { s with arguments := [], input, choices }

/-- What a run with arguments and one with lines share. -/
structure AlikeButInputs (s s' : Setting) (o o' : Outcome) : Prop where
  exitCode : o.exitCode = o'.exitCode
  queries : o.queries = o'.queries
  /-- Neither does anything under a bad environment. -/
  refused : ∀ e, Config.ofEnvironment s.environment = .error e →
    o.output = [] ∧ o'.output = [] ∧ o.queries = [] ∧ o'.queries = []
  /-- Under a good one the reports on their batches are both kept from being written, or are the
  same but for white space around the inputs, which the first report has as they are given. -/
  reported : ∀ c, Config.ofEnvironment s.environment = .ok c → ∃ b b',
    Batch.run (options c) (Batch.Task.lookup s.resolver) s.choices s.arguments s.elapsed = .ok b ∧
    Batch.run (options c) (Batch.Task.lookup s.resolver) s'.choices (inputs [] s'.input) s'.elapsed =
      .ok b' ∧
    ((∃ f, publish s c b.entries = .error f ∧ publish s' c b'.entries = .error f ∧
        o.output = [] ∧ o'.output = []) ∨
      ∃ r : Report, publish s c b.entries = .ok (r, o.output) ∧
        publish s' c b'.entries = .ok (r.trimmed, o'.output) ∧
        r.entries.map Entry.input = s.arguments)

section

variable {input : Text} {choices : List Nat}

/-- A run under a bad environment does the same whatever its inputs. -/
theorem alike_of_error {e : Config.Error} (h : Config.ofEnvironment s.environment = .error e) :
    AlikeButInputs s (s.reading input choices) (run s) (run (s.reading input choices)) := by
  have hrun : run s = { exitCode := 1, session := .setup false, records := [configRecord e] } := by
    unfold run
    rw [h]
  have hsame : run (s.reading input choices) = run s := by
    unfold run Setting.reading
    rw [h]
  rw [hsame, hrun]
  exact {
    exitCode := rfl
    queries := rfl
    refused := fun _ _ => ⟨rfl, rfl, rfl, rfl⟩
    reported := fun c hc => by
      rw [h] at hc
      simp at hc }

theorem pending_reading (hgiven : inputs s.arguments s.input = s.arguments)
    (hread : inputs [] input = s.arguments.map Text.trim) :
    pending (s.reading input choices) c = pending s c := by
  calc Batch.pending (options c) (inputs [] input)
      = Batch.pending (options c) (s.arguments.map Text.trim) := by rw [hread]
    _ = Batch.pending (options c) s.arguments := Batch.pending_map_trim
    _ = Batch.pending (options c) (inputs s.arguments s.input) := by rw [hgiven]

theorem entries_reading (hgiven : inputs s.arguments s.input = s.arguments)
    (hread : inputs [] input = s.arguments.map Text.trim) :
    entries (s.reading input choices) c = (entries s c).map Entry.trimmed := by
  have hentries : entries s c =
      Batch.finalEntries (options c) (Batch.Task.lookup s.resolver) s.arguments := by
    unfold entries
    rw [hgiven]
  calc Batch.finalEntries (options c) (Batch.Task.lookup s.resolver) (inputs [] input)
      = Batch.finalEntries (options c) (Batch.Task.lookup s.resolver)
          (s.arguments.map Text.trim) := by rw [hread]
    _ = (Batch.finalEntries (options c) (Batch.Task.lookup s.resolver) s.arguments).map
          Entry.trimmed := Batch.finalEntries_map_trim
    _ = (entries s c).map Entry.trimmed := by rw [hentries]

/-- How a run ends whose report is published. -/
theorem ending_of_publish_ok {r : Report} {text : Text}
    (h : publish s c (entries s c) = .ok (r, text)) :
    (ending s c).exitCode = (if r.failed = 0 then 0 else 1) ∧ (ending s c).output = text := by
  unfold ending
  rw [h]
  exact ⟨rfl, rfl⟩

theorem ending_of_publish_error {f : Fault} (h : publish s c (entries s c) = .error f) :
    (ending s c).exitCode = 1 ∧ (ending s c).output = [] := by
  unfold ending
  rw [h]
  exact ⟨rfl, rfl⟩

/-- Either neither report is published, or both are, the same but for white space around
the inputs. -/
theorem endings_reading (hgiven : inputs s.arguments s.input = s.arguments)
    (hread : inputs [] input = s.arguments.map Text.trim) :
    (ending s c).exitCode = (ending (s.reading input choices) c).exitCode ∧
    ((∃ f, publish s c (entries s c) = .error f ∧
        publish (s.reading input choices) c (entries (s.reading input choices) c) = .error f ∧
        (ending s c).output = [] ∧ (ending (s.reading input choices) c).output = []) ∨
      ∃ r : Report, publish s c (entries s c) = .ok (r, (ending s c).output) ∧
        publish (s.reading input choices) c (entries (s.reading input choices) c) =
          .ok (r.trimmed, (ending (s.reading input choices) c).output) ∧
        r.entries = entries s c) := by
  -- Clock, time and output are the same in both runs, and so is whether there is a report.
  have hpublish : ∀ es, publish (s.reading input choices) c es = publish s c es := fun _ => rfl
  rcases publish_cases s c with ⟨f, hf⟩ | ⟨ms, hms⟩
  · have hno := hf (entries s c)
    have hno' := (hpublish _).trans (hf (entries (s.reading input choices) c))
    obtain ⟨hexit, hempty⟩ := ending_of_publish_error hno
    obtain ⟨hexit', hempty'⟩ := ending_of_publish_error hno'
    exact ⟨hexit.trans hexit'.symm, .inl ⟨f, hno, hno', hempty, hempty'⟩⟩
  · have hok := hms (entries s c)
    have hok' := (hpublish _).trans (hms (entries (s.reading input choices) c))
    obtain ⟨hexit, htext⟩ := ending_of_publish_ok hok
    obtain ⟨hexit', htext'⟩ := ending_of_publish_ok hok'
    have hsame : reportOn s ms c (entries (s.reading input choices) c) =
        (reportOn s ms c (entries s c)).trimmed := by
      rw [entries_reading hgiven hread]
      rfl
    refine ⟨?_, .inr ⟨reportOn s ms c (entries s c), ?_, ?_, rfl⟩⟩
    · rw [hexit, hexit', hsame, Report.failed_trimmed]
    · rw [htext]
      exact hok
    · rw [htext', ← hsame]
      exact hok'

theorem alike_of_ok (h : Config.ofEnvironment s.environment = .ok c)
    (hgiven : inputs s.arguments s.input = s.arguments)
    (hread : inputs [] input = s.arguments.map Text.trim) :
    AlikeButInputs s (s.reading input choices) (run s) (run (s.reading input choices)) := by
  obtain ⟨b, hb, hentries, hl⟩ := exists_batch h
  obtain ⟨b', hb', hentries', hl'⟩ := exists_batch (s := s.reading input choices) h
  obtain ⟨hexit, hreport⟩ := @endings_reading s c input choices hgiven hread
  have hinput : (entries s c).map Entry.input = s.arguments := by
    unfold entries
    rw [hgiven, Batch.map_input_finalEntries]
  rw [hgiven] at hb
  refine ⟨?_, ?_, fun e he => ?_, fun c' hc' => ?_⟩
  · rw [hl.exitCode, hl'.exitCode, hexit]
  · rw [hl.queries, hl'.queries, pending_reading hgiven hread]
    rfl
  · rw [h] at he
    simp at he
  · obtain rfl := Except.ok.inj (h.symm.trans hc')
    refine ⟨b, b', hb, hb', ?_⟩
    rw [hentries, hentries', hl.output, hl'.output]
    rcases hreport with hno | ⟨r, hr, hr', hes⟩
    · exact .inl hno
    · exact .inr ⟨r, hr, hr', by rw [hes, hinput]⟩

end

/-- **Lines stand for arguments.** A run whose arguments are not blank and have no
line end in them, and a run without arguments that finds them on lines of its
input, with any number of blank lines among them and with or without a line end
after the last, end with the same exit code and make the same queries, and their
reports are the same but for white space around the inputs; for an input without
that white space is converted to the same in every other field. -/
theorem lines_stand_for_arguments (s : Setting) (lines : List Text) (final : Text)
    (choices : List Nat) (hne : s.arguments ≠ [])
    (hargs : ∀ a ∈ s.arguments, Text.trim a ≠ [] ∧ '\n' ∉ a) (h : Spread s.arguments lines)
    (hfinal : final = [] ∨ final = ['\n']) :
    AlikeButInputs s (s.reading (Text.join ['\n'] lines ++ final) choices) (run s)
        (run (s.reading (Text.join ['\n'] lines ++ final) choices)) ∧
      ∀ v, Entry.ofInput (Text.trim v) = { Entry.ofInput v with input := Text.trim v } := by
  refine ⟨?_, Entry.ofInput_trim⟩
  have hgiven : inputs s.arguments s.input = s.arguments := if_pos hne
  have hread := inputs_of_spread hne hargs h hfinal
  cases hc : Config.ofEnvironment s.environment with
  | error e => exact alike_of_error hc
  | ok c => exact alike_of_ok hc hgiven hread

/-- A padded address and a bad input, on lines with blank ones around them and no
line end after the last. -/
theorem lines_stand_for_arguments_padded :
    let s : Setting := {
      arguments := [" 10.0.0.1\t", "x"].map String.toList
      environment := [(Config.resolveName, "yes".toList)]
      resolver := fun _ => { answer := fun _ => .ok ["a.example.".toList] }
      now := ⟨2025, 12, 19, 10, 30, 0, 0, some 0⟩ }
    let lines := ["", " 10.0.0.1\t", " \u3000", "x"].map String.toList
    let s' := s.reading (Text.join ['\n'] lines ++ []) [1]
    (s.arguments ≠ [] ∧ (∀ a ∈ s.arguments, Text.trim a ≠ [] ∧ '\n' ∉ a) ∧
      Spread s.arguments lines ∧ (([] : Text) = [] ∨ ([] : Text) = ['\n'])) ∧
    AlikeButInputs s s' (run s) (run s') ∧
      Entry.ofInput (Text.trim " ::1 ".toList) =
        { Entry.ofInput " ::1 ".toList with input := Text.trim " ::1 ".toList } := by
  intro s lines s'
  have hargs : ∀ a ∈ s.arguments, Text.trim a ≠ [] ∧ '\n' ∉ a := by decide +kernel
  have hlines : Spread s.arguments lines :=
    .blank (by simp [Text.AllBlank]) (by simp) (.argument _ (.blank (List.all_eq_true.mp (by decide))
      (by decide) (.argument _ .nil)))
  obtain ⟨halike, htrim⟩ := lines_stand_for_arguments s lines [] [1] (by decide) hargs hlines (.inl rfl)
  exact ⟨⟨by decide, hargs, hlines, .inl rfl⟩, halike, htrim _⟩

end Tool
end ReverseDns
