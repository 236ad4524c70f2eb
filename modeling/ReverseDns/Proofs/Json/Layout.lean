/-
# Values are read back in every layout

The two layouts of a value differ in the white space after an opening bracket,
after a comma and before a closing bracket, and in nothing else. Whatever white
space stands there, an exact value is read back from its text, whatever follows
(`readsBack_of_exact`): the white space is skipped, no part of a text can be taken
for the beginning of another, and two steps for each character are enough.

Key definitions: `Json.Exact`, `Json.Layout`, `Json.laid`, `Json.ReadsBack`.
Key theorems: `Json.readItems_laid`, `Json.readMembers_laid`, `Json.readsBack_of_exact`,
`Json.read?_pretty`, `Json.read?_compact`.
-/
import ReverseDns.Proofs.Json.Members
import ReverseDns.Proofs.Json.Quoted
import ReverseDns.Proofs.Json.Scalar

namespace ReverseDns
namespace Json

/-- A value that a text can give back as it is: it has no doubles, and no object in
it has two members of one name. -/
inductive Exact : Value → Prop
  | null : Exact .null
  | bool (b : Bool) : Exact (.bool b)
  | int (n : Int) : Exact (.int n)
  | str (t : Text) : Exact (.str t)
  | arr {vs : List Value} (items : ∀ v ∈ vs, Exact v) : Exact (.arr vs)
  | obj {ms : Members} (names : (ms.map Prod.fst).Nodup) (members : ∀ m ∈ ms, Exact m.2) :
    Exact (.obj ms)

/-! ### Layouts -/

/-- The white space of a layout: after an opening bracket, after a comma, and before
a closing bracket, in a value whose first line has the given indentation. -/
structure Layout where
  opening : Nat → Text
  between : Nat → Text
  closing : Nat → Text

namespace Layout

/-- One part a line. -/
def lines : Layout :=
  ⟨fun n => Value.newline (n + 2), fun n => Value.newline (n + 2), Value.newline⟩

/-- All parts on one line. -/
def oneLine : Layout := ⟨fun _ => [], fun _ => [' '], fun _ => []⟩

/-- A layout adds white space only. -/
structure IsBlank (l : Layout) : Prop where
  opening : ∀ n, ∀ c ∈ l.opening n, Json.IsBlank c
  between : ∀ n, ∀ c ∈ l.between n, Json.IsBlank c
  closing : ∀ n, ∀ c ∈ l.closing n, Json.IsBlank c

theorem isBlank_newline (n : Nat) : ∀ c ∈ Value.newline n, Json.IsBlank c := by
  intro c hc
  rcases List.mem_cons.mp hc with rfl | hc
  · rfl
  · rw [List.eq_of_mem_replicate hc]
    rfl

theorem isBlank_lines : lines.IsBlank :=
  ⟨fun n => isBlank_newline (n + 2), fun n => isBlank_newline (n + 2), isBlank_newline⟩

theorem isBlank_oneLine : oneLine.IsBlank := by
  refine ⟨fun n c hc => ?_, fun n c hc => ?_, fun n c hc => ?_⟩ <;>
    simp [oneLine, Json.IsBlank] at hc ⊢
  exact .inl (.inl (.inl hc))

end Layout

mutual

/-- A value in a layout, its first line having the given indentation. -/
def laid (l : Layout) (indent : Nat) : Value → Text
  | .arr (v :: vs) =>
    '[' :: (l.opening indent ++ (laid l (indent + 2) v ++ laidItems l indent vs))
  | .obj ((n, v) :: rest) =>
    '{' :: (l.opening indent ++ (quoted n ++ ':' :: ' '
      :: (laid l (indent + 2) v ++ laidMembers l indent rest)))
  | v => v.scalar

/-- The items after the first, and the closing bracket. -/
def laidItems (l : Layout) (indent : Nat) : List Value → Text
  | [] => l.closing indent ++ [']']
  | v :: vs => ',' :: (l.between indent ++ (laid l (indent + 2) v ++ laidItems l indent vs))

/-- The members after the first, and the closing brace. -/
def laidMembers (l : Layout) (indent : Nat) : Members → Text
  | [] => l.closing indent ++ ['}']
  | (n, v) :: rest =>
    ',' :: (l.between indent ++ (quoted n ++ ':' :: ' '
      :: (laid l (indent + 2) v ++ laidMembers l indent rest)))

end

mutual

theorem laid_lines : ∀ (v : Value) (n : Nat), laid .lines n v = v.pretty n
  | .arr (v :: vs), n => by
    rw [laid, Value.pretty, laid_lines v, laidItems_lines vs]
    rfl
  | .obj ((name, v) :: rest), n => by
    rw [laid, Value.pretty, laid_lines v, laidMembers_lines rest]
    rfl
  | .arr [], _ | .obj [], _ | .null, _ | .bool _, _ | .int _, _ | .float _, _ | .str _, _ => rfl

theorem laidItems_lines : ∀ (vs : List Value) (n : Nat),
    laidItems .lines n vs = Value.prettyItems n vs
  | [], _ => rfl
  | v :: vs, n => by
    rw [laidItems, Value.prettyItems, laid_lines v, laidItems_lines vs]
    rfl

theorem laidMembers_lines : ∀ (ms : Members) (n : Nat),
    laidMembers .lines n ms = Value.prettyMembers n ms
  | [], _ => rfl
  | (name, v) :: rest, n => by
    rw [laidMembers, Value.prettyMembers, laid_lines v, laidMembers_lines rest]
    rfl

end

mutual

theorem laid_oneLine : ∀ (v : Value) (n : Nat), laid .oneLine n v = v.compact
  | .arr (v :: vs), n => by
    rw [laid, Value.compact, laid_oneLine v, laidItems_oneLine vs]
    rfl
  | .obj ((name, v) :: rest), n => by
    rw [laid, Value.compact, laid_oneLine v, laidMembers_oneLine rest]
    rfl
  | .arr [], _ | .obj [], _ | .null, _ | .bool _, _ | .int _, _ | .float _, _ | .str _, _ => rfl

theorem laidItems_oneLine : ∀ (vs : List Value) (n : Nat),
    laidItems .oneLine n vs = Value.compactItems vs
  | [], _ => rfl
  | v :: vs, n => by
    rw [laidItems, Value.compactItems, laid_oneLine v, laidItems_oneLine vs]
    rfl

theorem laidMembers_oneLine : ∀ (ms : Members) (n : Nat),
    laidMembers .oneLine n ms = Value.compactMembers ms
  | [], _ => rfl
  | (name, v) :: rest, n => by
    rw [laidMembers, Value.compactMembers, laid_oneLine v, laidMembers_oneLine rest]
    rfl

end

/-! ### Reading a layout -/

variable {l : Layout} {v : Value} {vs : List Value} {ms : Members} {c : Char} {rest : Text}
  {fuel : Nat}

/-- A character that a value can begin with. -/
def Begins (c : Char) : Prop := ¬ IsBlank c ∧ c ≠ ']' ∧ c ≠ '}'

instance (c : Char) : Decidable (Begins c) := inferInstanceAs (Decidable (_ ∧ _))

theorem begins_of_isDigit (h : c.isDigit = true) : Begins c := by
  refine ⟨fun hc => ?_, ?_, ?_⟩
  · unfold IsBlank at hc
    simp only [Bool.or_eq_true, beq_iff_eq] at hc
    rcases hc with ((rfl | rfl) | rfl) | rfl <;> simp at h
  all_goals
    rintro rfl
    simp at h

/-- The text of a value begins with no white space and no closing bracket. -/
theorem exists_begins (h : Exact v) (l : Layout) (n : Nat) :
    ∃ c t, laid l n v = c :: t ∧ Begins c := by
  cases h with
  | null => exact ⟨'n', _, rfl, by decide⟩
  | bool b => cases b <;> exact ⟨_, _, rfl, by decide⟩
  | int i =>
    have hlaid : laid l n (.int i) = Text.decimal i := rfl
    obtain ⟨d, ds, hds, hd⟩ := Text.exists_toDigits i.natAbs
    rcases Text.decimal_cases i with ⟨-, hi⟩ | ⟨-, hi⟩
    · exact ⟨d, ds, by rw [hlaid, hi, hds], begins_of_isDigit hd⟩
    · exact ⟨'-', _, hi, by decide⟩
  | str t => exact ⟨'"', _, rfl, by decide⟩
  | @arr vs items => cases vs <;> exact ⟨'[', _, rfl, by decide⟩
  | @obj ms names members => cases ms <;> exact ⟨'{', _, rfl, by decide⟩

/-- A value that is read back from its text, whatever follows, when there are two
steps for each character. -/
def ReadsBack (l : Layout) (v : Value) : Prop :=
  ∀ (indent fuel : Nat) (rest : Text), 2 * (laid l indent v).length ≤ fuel → Stops rest →
    readValue fuel (laid l indent v ++ rest) = some (v, rest)

theorem stops_laidItems (hl : l.IsBlank) (indent : Nat) (vs : List Value) (rest : Text) :
    Stops (laidItems l indent vs ++ rest) := by
  cases vs with
  | nil =>
    rw [laidItems, List.append_assoc]
    exact stops_append (hl.closing indent) (stops_cons (by decide) _)
  | cons v vs => exact stops_cons (by decide) _

theorem stops_laidMembers (hl : l.IsBlank) (indent : Nat) (ms : Members) (rest : Text) :
    Stops (laidMembers l indent ms ++ rest) := by
  cases ms with
  | nil =>
    rw [laidMembers, List.append_assoc]
    exact stops_append (hl.closing indent) (stops_cons (by decide) _)
  | cons m ms => exact stops_cons (by decide) _

/-- Items are read back if each of them is. -/
theorem readItems_laid (hl : l.IsBlank) (indent : Nat) :
    ∀ (vs : List Value) (v : Value) (fuel : Nat) (rest : Text), (∀ w ∈ v :: vs, ReadsBack l w) →
    2 * (laid l (indent + 2) v ++ laidItems l indent vs).length + 1 ≤ fuel →
    readItems fuel (laid l (indent + 2) v ++ (laidItems l indent vs ++ rest)) = some (v :: vs, rest)
  | vs, v, 0, rest, _, hfuel => by simp at hfuel
  | [], v, fuel + 1, rest, h, hfuel => by
    rw [List.length_append] at hfuel
    have hv := h v List.mem_cons_self (indent + 2) fuel _ (by omega)
      (stops_laidItems hl indent [] rest)
    have hskip : skipBlanks (laidItems l indent [] ++ rest) = ']' :: rest := by
      rw [laidItems, List.append_assoc, skipBlanks_append (hl.closing indent)]
      rfl
    rw [readItems, hv]
    simp only [hskip]
  | w :: vs, v, fuel + 1, rest, h, hfuel => by
    obtain ⟨hv, hvs⟩ := List.forall_mem_cons.mp h
    have htail : laidItems l indent (w :: vs) ++ rest = ',' :: (l.between indent ++
        (laid l (indent + 2) w ++ (laidItems l indent vs ++ rest))) := by
      rw [laidItems]
      simp only [List.cons_append, List.append_assoc]
    have hlength : (laidItems l indent (w :: vs)).length = (l.between indent).length +
        (laid l (indent + 2) w ++ laidItems l indent vs).length + 1 := by
      rw [laidItems, List.length_cons, List.length_append]
    rw [List.length_append, hlength] at hfuel
    have hread := hv (indent + 2) fuel _ (by omega) (stops_laidItems hl indent (w :: vs) rest)
    have ih := readItems_laid hl indent vs w fuel rest hvs (by omega)
    rw [readItems, hread]
    simp only [htail, skipBlanks_cons (show ¬ IsBlank ',' by decide),
      readItems_append (hl.between indent), ih]
    rfl

theorem readValue_space (cs : Text) : readValue fuel (' ' :: cs) = readValue fuel cs :=
  readValue_append (w := [' ']) (by simp [IsBlank])

variable {x more : Text}

/-- The reader of members stops at a closing brace behind a value. -/
theorem readMembers_last (hread : readValue fuel x = some (v, more))
    (hmore : skipBlanks more = '}' :: rest) (name : Text) :
    readMembers (fuel + 1) (quoted name ++ ':' :: ' ' :: x) = some ([(name, v)], rest) := by
  rw [readMembers, quoted, List.cons_append, skipBlanks_cons (show ¬ IsBlank '"' by decide)]
  simp only [List.append_assoc, List.singleton_append, readString_quoted,
    skipBlanks_cons (show ¬ IsBlank ':' by decide), readValue_space, hread, hmore]

/-- The reader of members goes on at a comma behind a value. -/
theorem readMembers_more (hread : readValue fuel x = some (v, more))
    (hmore : skipBlanks more = ',' :: rest) (name : Text) :
    readMembers (fuel + 1) (quoted name ++ ':' :: ' ' :: x) =
      (readMembers fuel rest).map fun r => ((name, v) :: r.1, r.2) := by
  rw [readMembers, quoted, List.cons_append, skipBlanks_cons (show ¬ IsBlank '"' by decide)]
  simp only [List.append_assoc, List.singleton_append, readString_quoted,
    skipBlanks_cons (show ¬ IsBlank ':' by decide), readValue_space, hread, hmore]

/-- Members are read back if each of their values is. -/
theorem readMembers_laid (hl : l.IsBlank) (indent : Nat) :
    ∀ (ms : Members) (name : Text) (v : Value) (fuel : Nat) (rest : Text),
    (∀ m ∈ (name, v) :: ms, ReadsBack l m.2) →
    2 * (quoted name ++ ':' :: ' ' :: (laid l (indent + 2) v ++ laidMembers l indent ms)).length + 1
      ≤ fuel →
    readMembers fuel (quoted name ++ ':' :: ' ' ::
      (laid l (indent + 2) v ++ (laidMembers l indent ms ++ rest))) = some ((name, v) :: ms, rest)
  | ms, name, v, 0, rest, _, hfuel => by simp at hfuel
  | [], name, v, fuel + 1, rest, h, hfuel => by
    simp only [List.length_append, List.length_cons] at hfuel
    have hv : ReadsBack l v := h (name, v) List.mem_cons_self
    have hread := hv (indent + 2) fuel _ (by omega) (stops_laidMembers hl indent [] rest)
    refine readMembers_last hread ?_ name
    rw [laidMembers, List.append_assoc, skipBlanks_append (hl.closing indent)]
    rfl
  | (name', w) :: ms, name, v, fuel + 1, rest, h, hfuel => by
    obtain ⟨hv, hms⟩ := List.forall_mem_cons.mp h
    have hcomma : skipBlanks (laidMembers l indent ((name', w) :: ms) ++ rest) =
        ',' :: (l.between indent ++ (quoted name' ++ ':' :: ' ' ::
          (laid l (indent + 2) w ++ (laidMembers l indent ms ++ rest)))) := by
      rw [laidMembers]
      simp only [List.cons_append, List.append_assoc]
      exact skipBlanks_cons (by decide)
    have hlength : (laidMembers l indent ((name', w) :: ms)).length = (l.between indent).length +
        (quoted name' ++ ':' :: ' ' :: (laid l (indent + 2) w ++ laidMembers l indent ms)).length
          + 1 := by
      rw [laidMembers, List.length_cons, List.length_append]
    rw [List.length_append, List.length_cons, List.length_cons, List.length_append,
      hlength] at hfuel
    have hread := hv (indent + 2) fuel _ (by dsimp only; omega)
      (stops_laidMembers hl indent ((name', w) :: ms) rest)
    have ih := readMembers_laid hl indent ms name' w fuel rest hms (by omega)
    rw [readMembers_more hread hcomma, readMembers_append (hl.between indent), ih]
    rfl

/-! ### Members without repeated names -/

/-- Members with names of their own are put one after the other. -/
theorem foldl_put : ∀ (ms acc : Members), ((acc ++ ms).map Prod.fst).Nodup →
    ms.foldl (fun acc m => put m.1 m.2 acc) acc = acc ++ ms
  | [], acc, _ => by rw [List.foldl_nil, List.append_nil]
  | (n, v) :: ms, acc, h => by
    have hnotMem : n ∉ acc.map Prod.fst := by
      rw [List.map_append, List.nodup_append] at h
      exact fun hn => h.2.2 n hn n List.mem_cons_self rfl
    have hassoc : acc ++ [(n, v)] ++ ms = acc ++ (n, v) :: ms := by
      rw [List.append_assoc, List.singleton_append]
    rw [List.foldl_cons, put_of_notMem hnotMem, foldl_put ms _ (hassoc ▸ h), hassoc]

/-! ### Reading values -/

/-- What begins like no string, list or object is a word or a number. -/
theorem readValue_cons (h : Begins c) (hq : c ≠ '"') (hb : c ≠ '[') (hc : c ≠ '\x7b') (cs : Text) :
    readValue (fuel + 1) (c :: cs) = readScalar (c :: cs) := by
  rw [readValue, skipBlanks_cons h.1]
  split
  · rename_i heq
    exact absurd (List.cons.inj heq).1 hq
  · rename_i heq
    exact absurd (List.cons.inj heq).1 hb
  · rename_i heq
    exact absurd (List.cons.inj heq).1 hc
  · rfl

theorem readValue_decimal (n : Int) (h : Stops rest) :
    readValue (fuel + 1) (Text.decimal n ++ rest) = some (.int n, rest) := by
  obtain ⟨c, t, hlaid, hbegins⟩ := exists_begins (.int n) .oneLine 0
  have ht : Text.decimal n = c :: t := hlaid
  have hc : c = '-' ∨ c.isDigit = true := by
    apply Text.mem_decimal (n := n)
    rw [ht]
    exact List.mem_cons_self
  have hne : ∀ d : Char, d ≠ '-' → d.isDigit = false → c ≠ d := by
    rintro d hminus hdigit rfl
    rcases hc with hc | hc
    · exact hminus hc
    · rw [hdigit] at hc
      simp at hc
  have hread := readScalar_decimal n h
  rw [ht, List.cons_append] at hread ⊢
  rw [readValue_cons hbegins (hne _ (by decide) rfl) (hne _ (by decide) rfl)
    (hne _ (by decide) rfl), hread]

theorem readsBack_arr (hl : l.IsBlank) (hexact : ∀ v ∈ vs, Exact v) (h : ∀ v ∈ vs, ReadsBack l v) :
    ReadsBack l (.arr vs) := by
  intro indent fuel rest hfuel hrest
  cases vs with
  | nil =>
    have hlaid : laid l indent (.arr []) = ['[', ']'] := rfl
    rw [hlaid] at hfuel ⊢
    obtain ⟨f, rfl⟩ : ∃ f, fuel = f + 1 := ⟨fuel - 1, by simp at hfuel; omega⟩
    rw [readValue]
    rfl
  | cons v vs =>
    obtain ⟨c, t, ht, hbegins⟩ := exists_begins (hexact v List.mem_cons_self) l (indent + 2)
    have hlaid : laid l indent (.arr (v :: vs)) ++ rest = '[' :: (l.opening indent ++
        (laid l (indent + 2) v ++ (laidItems l indent vs ++ rest))) := by
      rw [laid]
      simp only [List.cons_append, List.append_assoc]
    have hlength : (laid l indent (.arr (v :: vs))).length = (l.opening indent).length +
        (laid l (indent + 2) v ++ laidItems l indent vs).length + 1 := by
      rw [laid, List.length_cons, List.length_append]
    obtain ⟨f, rfl⟩ : ∃ f, fuel = f + 1 := ⟨fuel - 1, by omega⟩
    have hitems := readItems_laid hl indent vs v f rest h (by omega)
    have hskip : skipBlanks (laid l (indent + 2) v ++ (laidItems l indent vs ++ rest)) =
        laid l (indent + 2) v ++ (laidItems l indent vs ++ rest) := by
      rw [ht, List.cons_append, skipBlanks_cons hbegins.1]
    -- The reader asks first whether the list ends here.
    have hbracket : ∀ rest',
        laid l (indent + 2) v ++ (laidItems l indent vs ++ rest) ≠ ']' :: rest' := by
      intro rest' heq
      rw [ht, List.cons_append] at heq
      exact hbegins.2.1 (List.cons.inj heq).1
    rw [hlaid, readValue, skipBlanks_cons (show ¬ IsBlank '[' by decide)]
    simp only [skipBlanks_append (hl.opening indent), hskip, hitems, Option.map_some]

theorem readsBack_obj (hl : l.IsBlank) (hnames : (ms.map Prod.fst).Nodup)
    (h : ∀ m ∈ ms, ReadsBack l m.2) : ReadsBack l (.obj ms) := by
  intro indent fuel rest hfuel hrest
  have hput := foldl_put ms [] hnames
  rw [List.nil_append] at hput
  match ms with
  | [] =>
    have hlaid : laid l indent (.obj []) = ['\x7b', '\x7d'] := rfl
    rw [hlaid] at hfuel ⊢
    obtain ⟨f, rfl⟩ : ∃ f, fuel = f + 1 := ⟨fuel - 1, by simp at hfuel; omega⟩
    rw [readValue]
    rfl
  | (name, v) :: ms =>
    have hlaid : laid l indent (.obj ((name, v) :: ms)) ++ rest = '\x7b' :: (l.opening indent ++
        (quoted name ++ ':' :: ' ' ::
          (laid l (indent + 2) v ++ (laidMembers l indent ms ++ rest)))) := by
      rw [laid]
      simp only [List.cons_append, List.append_assoc]
    have hlength : (laid l indent (.obj ((name, v) :: ms))).length = (l.opening indent).length +
        (quoted name ++ ':' :: ' ' :: (laid l (indent + 2) v ++ laidMembers l indent ms)).length
          + 1 := by
      rw [laid, List.length_cons, List.length_append]
    obtain ⟨f, rfl⟩ : ∃ f, fuel = f + 1 := ⟨fuel - 1, by omega⟩
    have hmembers := readMembers_laid hl indent ms name v f rest h (by omega)
    rw [hlaid, readValue, skipBlanks_cons (show ¬ IsBlank '\x7b' by decide)]
    rw [quoted, List.cons_append] at hmembers ⊢
    simp only [skipBlanks_append (hl.opening indent),
      skipBlanks_cons (show ¬ IsBlank '"' by decide)]
    show (readMembers f _).map (fun x : Members × Text =>
      (Value.obj (x.1.foldl (fun acc m => put m.1 m.2 acc) []), x.2)) = _
    rw [hmembers, Option.map_some, hput]

/-- **An exact value is read back in every layout**, whatever follows it. -/
theorem readsBack_of_exact (hl : l.IsBlank) (h : Exact v) : ReadsBack l v := by
  induction h with
  | arr items ih => exact readsBack_arr hl items ih
  | obj names members ih => exact readsBack_obj hl names ih
  | int n =>
    intro indent fuel rest hfuel hrest
    have hlaid : laid l indent (.int n) = Text.decimal n := rfl
    have hne : (Text.decimal n).length ≠ 0 := by
      obtain ⟨c, t, ht, -⟩ := exists_begins (.int n) l indent
      rw [← hlaid, ht]
      simp
    rw [hlaid] at hfuel ⊢
    obtain ⟨f, rfl⟩ : ∃ f, fuel = f + 1 := ⟨fuel - 1, by omega⟩
    exact readValue_decimal n hrest
  | str t =>
    intro indent fuel rest hfuel hrest
    have hlaid : laid l indent (.str t) ++ rest = '"' :: (t.flatMap escape ++ '"' :: rest) := by
      show quoted t ++ rest = _
      simp [quoted]
    have hne : (laid l indent (.str t)).length ≠ 0 := by simp [laid, Value.scalar, quoted]
    obtain ⟨f, rfl⟩ : ∃ f, fuel = f + 1 := ⟨fuel - 1, by omega⟩
    rw [hlaid, readValue, skipBlanks_cons (show ¬ IsBlank '"' by decide)]
    simp only [readString_quoted, Option.map_some]
  | null =>
    intro indent fuel rest hfuel hrest
    have hlength : (laid l indent .null).length = 4 := rfl
    obtain ⟨f, rfl⟩ : ∃ f, fuel = f + 1 := ⟨fuel - 1, by omega⟩
    rfl
  | bool b =>
    intro indent fuel rest hfuel hrest
    have hlength : 0 < (laid l indent (.bool b)).length := by cases b <;> exact Nat.succ_pos _
    obtain ⟨f, rfl⟩ : ∃ f, fuel = f + 1 := ⟨fuel - 1, by omega⟩
    cases b <;> rfl

theorem read?_laid (hl : l.IsBlank) (h : Exact v) (indent : Nat) :
    read? (laid l indent v) = some v := by
  have hread := readsBack_of_exact hl h indent (2 * (laid l indent v).length + 2) [] (by omega)
    stops_nil
  rw [List.append_nil] at hread
  unfold read?
  rw [hread]
  rfl

/-- **A value is read back from its lines.** -/
theorem read?_pretty (h : Exact v) (indent : Nat) : read? (v.pretty indent) = some v := by
  rw [← laid_lines]
  exact read?_laid Layout.isBlank_lines h indent

/-- **A value is read back from its one line.** -/
theorem read?_compact (h : Exact v) : read? v.compact = some v := by
  rw [← laid_oneLine v 0]
  exact read?_laid Layout.isBlank_oneLine h 0

end Json
end ReverseDns
