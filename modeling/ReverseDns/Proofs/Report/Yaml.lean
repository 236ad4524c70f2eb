/-
# The YAML form loses nothing and cannot be forged

The header of a YAML report is three lines, and the lines behind them tell the members
of the report, so two reports have one text if they have one value (`yaml_eq_iff`). All
of the text is printed, and its lines that begin in the first column are the header, the
names of the two members, and one line for each entry: no input, host name or message
adds another (`yaml_topLines`).

Key definition: `Report.headerLines`.
Key theorems: `Report.yaml_eq_iff`, `Report.yaml_topLines`.
-/
import ReverseDns.Proofs.Report.Json
import ReverseDns.Proofs.Yaml.Lines

namespace ReverseDns

open Json (Fields Members Value)
open Text (IsPrinted IsVisible)
open Yaml (Block Fits FitMembers IsName Leaf Tidy TopLines isTop)

/-! ### Report values fit -/

theorem Json.Fields.fits {α : Type} {fs : Fields α} {n : Nat} (names : ∀ f ∈ fs, IsName f.1)
    (room : n + 2 < Yaml.width) (a : α) (h : ∀ f ∈ fs, Fits (n + 2) (f.2 a)) :
    Fits n (fs.value a) := by
  refine .obj room (fun m hm => ?_) fun m hm => ?_ <;> obtain ⟨f, hf, rfl⟩ := List.mem_map.mp hm
  · exact names f hf
  · exact h f hf

theorem Yaml.fits_str {n : Nat} (room : n + 2 < Yaml.width) (t : Text) : Fits n (.str t) :=
  .leaf (.str t) room

theorem Yaml.fits_text? {n : Nat} (room : n + 2 < Yaml.width) (t : Option Text) :
    Fits n (.text? t) := by
  cases t with
  | none => exact .leaf (.word .null) room
  | some t => exact .leaf (.str t) room

theorem Ptr.Result.fits_value (r : Ptr.Result) : Fits 6 r.value := by
  rw [value_eq]
  refine Fields.fits (by decide) (by decide) r (List.forall_iff_forall_mem.mp ?_)
  have hstr : ∀ t, Fits 8 (.str t) := Yaml.fits_str (by decide)
  have hhostnames : Fits 8 (.arr (r.hostnames.map .str)) := by
    refine .arr (by decide) fun v hv => ?_
    obtain ⟨t, -, rfl⟩ := List.mem_map.mp hv
    exact Yaml.fits_str (by decide) t
  simp only [fields, List.Forall]
  exact ⟨hstr _, hstr _, hhostnames, hstr _⟩

theorem Entry.fits_value (e : Entry) : Fits 4 e.value := by
  rw [value_eq]
  refine Fields.fits (by decide) (by decide) e (List.forall_iff_forall_mem.mp ?_)
  have hstr : ∀ t, Fits 6 (.str t) := Yaml.fits_str (by decide)
  have htext : ∀ t, Fits 6 (.text? t) := Yaml.fits_text? (by decide)
  have hptr : Fits 6 (.ofOption Ptr.Result.value e.ptr) := by
    cases e.ptr with
    | none => exact .leaf (.word .null) (by decide)
    | some p => exact p.fits_value
  simp only [fields, List.Forall]
  exact ⟨hstr _, hstr _, hstr _, htext _, htext _, htext _, htext _, hptr⟩

namespace Report

theorem fits_summary (r : Report) : Fits 2 r.summary := by
  show Fits 2 (summaryFields.value (r, r.timestamp.iso))
  refine Fields.fits (by decide) (by decide) _ (List.forall_iff_forall_mem.mp ?_)
  have hstr : ∀ t, Fits 4 (.str t) := Yaml.fits_str (by decide)
  have hint : ∀ n, Fits 4 (.int n) := fun n => .leaf (.word (.int n)) (by decide)
  have hbool : ∀ b, Fits 4 (.bool b) := fun b => .leaf (.word (.bool b)) (by decide)
  simp only [summaryFields, List.Forall]
  exact ⟨hstr _, hint _, hint _, hint _, hbool _, hint _, hint _⟩

theorem fits_results (r : Report) : Fits 2 (.arr (r.entries.map Entry.value)) := by
  refine .arr (by decide) fun v hv => ?_
  obtain ⟨e, -, rfl⟩ := List.mem_map.mp hv
  exact e.fits_value

theorem fitMembers (r : Report) : FitMembers 0 r.members := by
  refine List.forall_iff_forall_mem.mp ?_
  simp only [members, List.Forall]
  exact ⟨⟨by decide, r.fits_summary.mono (by omega)⟩, by decide, r.fits_results.mono (by omega)⟩

/-! ### The header -/

/-- The comment lines of a report. -/
def headerLines (r : Report) : List Text :=
  ["# Reverse address conversion report".toList, "# Generated: ".toList ++ r.timestamp.iso,
    "# Converted: ".toList ++ Text.decimal r.converted ++ '/' :: Text.decimal r.total]

theorem length_headerLines (r : Report) : r.headerLines.length = 3 := rfl

/-- The header is its lines, each with a line end. -/
theorem header_eq (r : Report) : r.header = r.headerLines.flatMap (· ++ ['\n']) := by
  have hfirst : "# Reverse address conversion report\n# Generated: ".toList =
      "# Reverse address conversion report".toList ++ '\n' :: "# Generated: ".toList := by simp
  have hsecond : "\n# Converted: ".toList = '\n' :: "# Converted: ".toList := by simp
  unfold header headerLines
  rw [hfirst, hsecond]
  -- only the places of the line ends matter
  generalize "# Reverse address conversion report".toList = first
  generalize "# Generated: ".toList = second
  generalize "# Converted: ".toList = third
  simp only [List.flatMap_cons, List.flatMap_nil, List.append_assoc, List.cons_append,
    List.nil_append, List.append_nil]

theorem isVisible_iso (t : Timestamp) : ∀ c ∈ t.iso, IsVisible c := by
  have hfield : ∀ width n, ∀ c ∈ Text.padded 10 width n, IsVisible c := fun width n =>
    Text.isVisible_padded (by omega) (by omega)
  have hfraction : ∀ c ∈ (if t.microsecond = 0 then [] else '.' :: Text.padded 10 6 t.microsecond),
      IsVisible c := by
    split
    · simp
    · exact List.forall_mem_cons.mpr ⟨by decide, hfield _ _⟩
  have hclock : ∀ c ∈ t.clock, IsVisible c := by
    simp only [Timestamp.clock, List.forall_mem_append, List.forall_mem_cons]
    exact ⟨⟨⟨⟨⟨⟨hfield _ _, by decide, hfield _ _⟩, by decide, hfield _ _⟩, by decide, hfield _ _⟩,
      by decide, hfield _ _⟩, by decide, hfield _ _⟩, hfraction⟩
  have hoffset : ∀ m, ∀ c ∈ Timestamp.offsetText m, IsVisible c := by
    intro m
    simp only [Timestamp.offsetText, List.forall_mem_append, List.forall_mem_cons]
    exact ⟨by split <;> decide, hfield _ _, by decide, hfield _ _⟩
  unfold Timestamp.iso
  refine List.forall_mem_append.mpr ⟨hclock, ?_⟩
  cases t.offset with
  | none => simp
  | some m => exact hoffset m

/-- A header line is printed on one line and begins like a comment. -/
theorem of_mem_headerLines (r : Report) :
    ∀ l ∈ r.headerLines, (∀ c ∈ l, IsVisible c) ∧ "# ".toList <+: l := by
  refine List.forall_iff_forall_mem.mp ?_
  simp only [headerLines, List.Forall, List.forall_mem_append, List.forall_mem_cons]
  have hmark : ∀ s : Text, "# ".toList <+: '#' :: ' ' :: s :=
    fun s => List.prefix_append ['#', ' '] s
  exact ⟨⟨Text.isVisible_of_all rfl, hmark _⟩,
    ⟨⟨Text.isVisible_of_all rfl, isVisible_iso _⟩, hmark _⟩,
    ⟨⟨Text.isVisible_of_all rfl, Text.isVisible_decimal _⟩, by decide, Text.isVisible_decimal _⟩,
    hmark _⟩

/-! ### One text for one value -/

/-- A printed line has no line end. -/
theorem newline_notMem {l : Text} (h : ∀ c ∈ l, IsVisible c) : '\n' ∉ l :=
  fun hmem => absurd (h _ hmem) (by decide)

/-- The members are told by the lines behind the header. -/
theorem members_eq_of_yaml_eq {r r' : Report} (h : r.yaml = r'.yaml) : r.members = r'.members := by
  have hlines : ∀ r : Report, ∀ l ∈ r.headerLines, '\n' ∉ l := fun r l hl =>
    newline_notMem (r.of_mem_headerLines l hl).1
  have hlength : r.headerLines.length = r'.headerLines.length := by
    rw [length_headerLines, length_headerLines]
  rw [yaml, yaml, header_eq, header_eq] at h
  have hdocument := Text.append_lines_inj (hlines r) (hlines r') hlength h
  exact Yaml.document_inj r.fitMembers r'.fitMembers hdocument

/-- The header is told by the totals. -/
theorem header_eq_of_summary_eq {r r' : Report} (h : r.summary = r'.summary) :
    r.header = r'.header := by
  simp only [summary, Value.obj.injEq, List.cons.injEq, Prod.mk.injEq, Value.str.injEq,
    Value.int.injEq, true_and] at h
  obtain ⟨hiso, htotal, hconverted, -⟩ := h
  unfold header
  rw [hiso, htotal, hconverted]

theorem yaml_eq_of_value_eq {r r' : Report} (h : r.value = r'.value) : r.yaml = r'.yaml := by
  have hmembers : r.members = r'.members := Value.obj.inj h
  have hsummary : r.summary = r'.summary := (Prod.mk.inj (List.cons.inj hmembers).1).2
  rw [yaml, yaml, header_eq_of_summary_eq hsummary, hmembers]

/-! ### Lines of a report -/

theorem block_headerLine {r : Report} {l : Text} (hl : l ∈ r.headerLines) :
    Block 2 (l ++ ['\n']) ∧ '\n' ∉ l ∧ isTop l = true := by
  obtain ⟨hvisible, hprefix⟩ := r.of_mem_headerLines l hl
  refine ⟨⟨l, rfl, Yaml.tidy_of_visible hvisible⟩, newline_notMem hvisible, ?_⟩
  obtain ⟨u, rfl⟩ := hprefix
  rfl

theorem topLines_header (r : Report) {t : Text} {tops : List Text} (h : TopLines 2 t tops) :
    TopLines 2 (r.header ++ t) (r.headerLines ++ tops) := by
  rw [header_eq]
  have hlines := fun l (hl : l ∈ r.headerLines) => block_headerLine hl
  generalize r.headerLines = ls at hlines
  induction ls with
  | nil => exact h
  | cons l ls ih =>
    obtain ⟨⟨hblock, hline, htop⟩, hls⟩ := List.forall_mem_cons.mp hlines
    rw [List.flatMap_cons, List.append_assoc, List.cons_append]
    exact .cons (by omega) hblock rfl hline htop (ih hls)

theorem topLines_summary (r : Report) (column : Nat) {t : Text} {tops : List Text}
    (h : TopLines 2 t tops) :
    TopLines 2 ("summary:".toList ++ Yaml.afterKey 0 column r.summary ++ t)
      ("summary:".toList :: tops) := by
  have hblock : Block 2 ("summary:".toList ++ Yaml.afterKey 0 column r.summary) :=
    .append (Yaml.tidy_of_visible (Text.isVisible_of_all rfl))
      (Yaml.block_afterKey_obj (Yaml.membersBlock _) (r.fits_summary.mono (by omega)) (by omega))
  exact .cons (by omega) hblock (by rw [summary, Yaml.afterKey_obj]) (by decide) rfl h

/-- **Each entry has one line in the first column.** -/
theorem exists_topLines_results (r : Report) (column : Nat) : ∃ tops : List Text,
    tops.length = r.total ∧ (∀ l ∈ tops, "- input:".toList <+: l) ∧
    TopLines 2 ("results:".toList ++ Yaml.afterKey 0 column (.arr (r.entries.map Entry.value)))
      ((if r.entries = [] then "results: []".toList else "results:".toList) :: tops) := by
  have hprefix : ∀ v ∈ r.entries.map Entry.value,
      Fits 0 v ∧ "- input:".toList <+: '-' :: Yaml.afterDash 0 v := by
    intro v hv
    obtain ⟨e, -, rfl⟩ := List.mem_map.mp hv
    refine ⟨e.fits_value.mono (by omega), ?_⟩
    rw [Entry.value, Yaml.afterDash]
    exact List.prefix_append "- input:".toList _
  have htop : ∀ l : Text, "- input:".toList <+: l → isTop l = true := by
    rintro l ⟨u, rfl⟩
    rfl
  obtain ⟨tops, hlength, htops, hlines⟩ :=
    Yaml.exists_topLines_items (by decide) htop (r.entries.map Entry.value) hprefix
  refine ⟨tops, by rw [hlength, List.length_map, total], htops, ?_⟩
  cases hentries : r.entries with
  | nil =>
    rw [hentries] at hlines
    have hblock : Block 2 ("results: []".toList ++ ['\n']) :=
      ⟨_, rfl, Yaml.tidy_of_visible (Text.isVisible_of_all rfl)⟩
    have htext : "results:".toList ++ Yaml.afterKey 0 column (.arr []) =
        ("results: []".toList ++ ['\n']) ++ Yaml.items 0 [] := by
      rw [Yaml.afterKey_eq_scalar (.word .arr), Yaml.items]
      rfl
    rw [if_pos rfl, List.map_nil, htext]
    exact .cons (by omega) hblock rfl (by decide) rfl hlines
  | cons e es =>
    rw [hentries] at hlines
    have hblock : Block 2 ("results:".toList ++ ['\n']) :=
      ⟨_, rfl, Yaml.tidy_of_visible (Text.isVisible_of_all rfl)⟩
    have hne : e :: es ≠ [] := List.cons_ne_nil e es
    rw [if_neg hne, List.map_cons, Yaml.afterKey_arr, ← List.singleton_append, ← List.append_assoc]
    exact .cons (by omega) hblock rfl (by decide) rfl hlines

/-- The two members of a report, each with its value. -/
theorem document_members (r : Report) : ∃ i j : Nat, Yaml.document r.members =
    "summary:".toList ++ Yaml.afterKey 0 i r.summary ++
      ("results:".toList ++ Yaml.afterKey 0 j (.arr (r.entries.map Entry.value))) := by
  refine ⟨0 + "summary".toList.length + 1, 0 + "results".toList.length + 1, ?_⟩
  have hsummary : "summary:".toList = "summary".toList ++ [':'] := rfl
  have hresults : "results:".toList = "results".toList ++ [':'] := rfl
  rw [hsummary, hresults, Yaml.document, members, Yaml.members, Yaml.members, Yaml.members]
  simp only [Yaml.spaces, List.replicate_zero, List.nil_append, List.append_nil, List.append_assoc,
    List.cons_append]

/-! ### Main results -/

/-- **The YAML form of a report loses nothing**: it is printable ASCII and line ends, and
two reports have one text if and only if they have one value. -/
theorem yaml_eq_iff (r : Report) : IsPrinted r.yaml ∧ Text.IsAscii r.yaml ∧
    ∀ r' : Report, r.yaml = r'.yaml ↔ r.value = r'.value := by
  have hheader : IsPrinted r.header := by
    rw [header_eq]
    intro c hc
    obtain ⟨l, hl, hc⟩ := List.mem_flatMap.mp hc
    rcases List.mem_append.mp hc with hc | hc
    · exact .inr ((r.of_mem_headerLines l hl).1 c hc)
    · exact .inl (List.mem_singleton.mp hc)
  have hprinted : IsPrinted r.yaml :=
    Text.isPrinted_append.mpr ⟨hheader, Yaml.isPrinted_document r.fitMembers⟩
  refine ⟨hprinted, hprinted.isAscii, fun r' => ⟨fun h => ?_, yaml_eq_of_value_eq⟩⟩
  rw [value, value, members_eq_of_yaml_eq h]

/-- **No input forges the structure of a YAML report.** Of its lines, those that begin in
the first column are three comments, the names of the two members, and one line for each
entry; all others are empty or indented. -/
theorem yaml_topLines (r : Report) : ∃ header entries : List Text,
    (r.yaml.splitOn '\n').filter isTop = header ++ "summary:".toList ::
      (if r.entries = [] then "results: []".toList else "results:".toList) :: entries ∧
    header.length = 3 ∧ (∀ l ∈ header, "# ".toList <+: l) ∧
    entries.length = r.total ∧ (∀ l ∈ entries, "- input:".toList <+: l) ∧
    ∀ l ∈ r.yaml.splitOn '\n', isTop l = true ∨ l = [] ∨ "  ".toList <+: l := by
  obtain ⟨i, j, hdocument⟩ := r.document_members
  obtain ⟨entries, hlength, hentries, hresults⟩ := r.exists_topLines_results j
  have hlines := r.topLines_header (r.topLines_summary i hresults)
  rw [← hdocument] at hlines
  exact ⟨r.headerLines, entries, hlines.tops, r.length_headerLines,
    fun l hl => (r.of_mem_headerLines l hl).2, hlength, hentries, hlines.others⟩

end Report
end ReverseDns
