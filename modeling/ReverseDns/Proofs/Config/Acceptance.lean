/-
# Which environments are accepted

Three variables can be refused, and each of them is a test of its own text or of
its default: the form of the report has to be named, in any letter case, and the
two numbers have to be integers in their ranges. An environment is accepted if
every test is passed, and the numbers that it sets are then those that their
texts denote. If not, the first test that fails is reported, in an error that
begins with the name of its variable (`Config.ofEnvironment_decides`).

Key definitions: `Report.Format.IsNamed`, `Config.Variable`,
`Config.Variable.Accepts`, `Config.Variable.Refuses`, `Config.Blames`.
Key theorems: `Config.bounded_eq_ok_iff`, `Config.bounded_eq_error_iff`,
`Config.ofEnvironment_eq_error_iff`, `Config.ofEnvironment_decides`.
-/
import ReverseDns.Proofs.Config
import ReverseDns.Proofs.Config.Integer
import ReverseDns.Proofs.Text.Letter

namespace ReverseDns

/-! ### The name of a form -/

namespace Report.Format

variable {t : Text} {f : Format}

/-- A text names a form: the form's name in any letter case, with white space
around it. -/
def IsNamed (t : Text) (f : Format) : Prop :=
  ∃ before word after, t = before ++ word ++ after ∧ Text.AllBlank Text.isBlank before ∧
    Text.AllBlank Text.isBlank after ∧ word.map Char.toLower = f.name

theorem ofName?_eq_some_iff : ofName? t = some f ↔ t = f.name := by
  constructor
  · intro h
    have hname := List.find?_some (p := fun f : Format => f.name == t) h
    exact (beq_iff_eq.mp hname).symm
  · rintro rfl
    cases f <;> rfl

theorem isPlain_name (f : Format) : ∀ c ∈ f.name, Text.IsPlain c := by
  have hall : (f.name.all fun c => decide (Text.IsPlain c)) = true := by
    cases f <;> decide
  exact fun c hc => of_decide_eq_true (List.all_eq_true.mp hall c hc)

theorem isBlank_name (f : Format) : ∀ c ∈ f.name, Text.isBlank c = false := by
  have hall : (f.name.all fun c => !Text.isBlank c) = true := by
    cases f <;> decide
  intro c hc
  simpa using List.all_eq_true.mp hall c hc

/-- Capitals are blank no more than their small letters. -/
theorem isTrimmed_of_map_toLower {word : Text} (h : word.map Char.toLower = f.name) :
    Text.IsTrimmed Text.isBlank word := by
  have hsame : ∀ n < 128, Text.isBlank (Char.ofNat n) = Text.isBlank (Char.ofNat n).toLower := by
    decide
  apply Text.IsTrimmed.of_forall
  intro c hc
  have hlow : c.toLower ∈ f.name := h ▸ List.mem_map_of_mem hc
  have hascii : c.toNat < 128 := Text.toNat_lt_of_toLower (f.isPlain_name _ hlow).2
  calc Text.isBlank c = Text.isBlank c.toLower :=
        Text.forall_ascii (P := fun c => Text.isBlank c = Text.isBlank c.toLower) hsame hascii
    _ = false := f.isBlank_name _ hlow

theorem lower_trim_eq_name_iff : Text.lower (Text.trim t) = f.name ↔ IsNamed t f := by
  rw [Text.lower_eq_iff f.isPlain_name]
  constructor
  · intro h
    obtain ⟨before, after, ht, hbefore, hafter⟩ := Text.exists_eq_append_trimOf Text.isBlank t
    exact ⟨before, Text.trim t, after, ht, hbefore, hafter, h⟩
  · rintro ⟨before, word, after, rfl, hbefore, hafter, hword⟩
    rw [Text.trim, Text.trimOf_append hbefore (isTrimmed_of_map_toLower hword) hafter]
    exact hword

end Report.Format

namespace Config

/-! ### The variables that can be refused -/

/-- The variables that can be refused. -/
inductive Variable
  | format
  | timeout
  | concurrency
deriving DecidableEq, Repr

namespace Variable

/-- The order in which they are checked. -/
def all : List Variable := [.format, .timeout, .concurrency]

def name : Variable → Text
  | .format => formatName
  | .timeout => timeoutName
  | .concurrency => concurrencyName

/-- What is read where a variable is not set. -/
def default : Variable → Text
  | .format => "json".toList
  | .timeout => "5".toList
  | .concurrency => "10".toList

/-- The text that is read for a variable. -/
def text (env : Environment) (v : Variable) : Text := (env.get? v.name).getD v.default

/-- The most that a number may be; the form of the report is no number. -/
def most? : Variable → Option Int
  | .format => none
  | .timeout => some 60
  | .concurrency => some 100

/-- The error of a text that is refused, unless it should be an integer and is
none. -/
def rangeError : Variable → Config.Error
  | .format => .format
  | .timeout => .timeoutRange
  | .concurrency => .concurrencyRange

/-- The texts that a variable may have: the name of a form, or an integer between
one and the most that it may be. -/
def Accepts (v : Variable) (t : Text) : Prop :=
  match v.most? with
  | none => ∃ f, Report.Format.IsNamed t f
  | some most => ∃ n, Integer.IsInteger t n ∧ 1 ≤ n ∧ n ≤ most

/-- The texts that a variable may not have, each with its error. -/
def Refuses (v : Variable) (t : Text) (e : Config.Error) : Prop :=
  match v.most? with
  | none => e = .format ∧ ∀ f, ¬ Report.Format.IsNamed t f
  | some most => (e = .notInteger v.name t ∧ ∀ n, ¬ Integer.IsInteger t n) ∨
      (e = v.rangeError ∧ ∃ n, Integer.IsInteger t n ∧ ¬ (1 ≤ n ∧ n ≤ most))

end Variable

variable {env : Environment} {c : Config} {e : Config.Error} {v : Variable} {f : Report.Format}

/-! ### Reading one variable -/

section

variable {name preset : Text} {default most n : Int} {outside : Config.Error}

/-- An integer variable is read from its text or from the text of its default. -/
theorem bounded_eq (hpreset : Integer.read? preset = some default) :
    bounded env name default most outside =
      match Integer.read? ((env.get? name).getD preset) with
      | some n => if 1 ≤ n ∧ n ≤ most then .ok n else .error outside
      | none => .error (.notInteger name ((env.get? name).getD preset)) := by
  unfold bounded integer
  cases env.get? name with
  | none => simp only [Option.getD_none, hpreset]
  | some t =>
    simp only [Option.getD_some]
    cases Integer.read? t <;> rfl

theorem bounded_eq_ok_iff (hpreset : Integer.read? preset = some default) :
    bounded env name default most outside = .ok n ↔
      Integer.IsInteger ((env.get? name).getD preset) n ∧ 1 ≤ n ∧ n ≤ most := by
  rw [bounded_eq hpreset, ← Integer.read?_eq_some_iff]
  cases Integer.read? ((env.get? name).getD preset) with
  | none => simp
  | some m =>
    dsimp only
    split_ifs with hm
    · rw [Except.ok.injEq, Option.some.injEq]
      constructor
      · rintro rfl
        exact ⟨rfl, hm⟩
      · exact fun h => h.1
    · refine iff_of_false (by simp) ?_
      rintro ⟨hmn, hn⟩
      rw [Option.some.inj hmn] at hm
      exact hm hn

theorem bounded_eq_error_iff (hpreset : Integer.read? preset = some default) :
    bounded env name default most outside = .error e ↔
      (e = .notInteger name ((env.get? name).getD preset) ∧
        ∀ n, ¬ Integer.IsInteger ((env.get? name).getD preset) n) ∨
      (e = outside ∧
        ∃ n, Integer.IsInteger ((env.get? name).getD preset) n ∧ ¬ (1 ≤ n ∧ n ≤ most)) := by
  rw [bounded_eq hpreset]
  simp only [← Integer.read?_eq_some_iff]
  cases Integer.read? ((env.get? name).getD preset) with
  | none => simp [eq_comm]
  | some m =>
    dsimp only
    split_ifs with hm
    · simp [hm]
    · rw [Except.error.injEq]
      constructor
      · rintro rfl
        exact .inr ⟨rfl, m, rfl, hm⟩
      · rintro (⟨-, hno⟩ | ⟨rfl, -⟩)
        · exact absurd rfl (hno m)
        · rfl

end

/-- The form is read from the text of its variable or from its default. -/
theorem formatOf_eq : formatOf env =
    match Report.Format.ofName? (Text.lower (Text.trim (Variable.text env .format))) with
    | some f => .ok f
    | none => .error .format := by
  unfold formatOf Variable.text Variable.name Variable.default
  cases env.get? formatName with
  | none => rfl
  | some t => rfl

theorem formatOf_eq_ok_iff :
    formatOf env = .ok f ↔ Report.Format.IsNamed (Variable.text env .format) f := by
  rw [formatOf_eq, ← Report.Format.lower_trim_eq_name_iff, ← Report.Format.ofName?_eq_some_iff]
  cases Report.Format.ofName? (Text.lower (Text.trim (Variable.text env .format))) <;> simp

theorem formatOf_eq_error_iff : formatOf env = .error e ↔
    e = .format ∧ ∀ f, ¬ Report.Format.IsNamed (Variable.text env .format) f := by
  simp only [← formatOf_eq_ok_iff]
  rw [formatOf_eq]
  cases Report.Format.ofName? (Text.lower (Text.trim (Variable.text env .format))) <;>
    simp [eq_comm]

/-- The defaults of the numbers are read. -/
theorem read?_five : Integer.read? "5".toList = some 5 := by decide

theorem read?_ten : Integer.read? "10".toList = some 10 := by decide

theorem timeout_eq_ok_iff {n : Int} : bounded env timeoutName 5 maxTimeout .timeoutRange = .ok n ↔
    Integer.IsInteger (Variable.text env .timeout) n ∧ 1 ≤ n ∧ n ≤ 60 :=
  bounded_eq_ok_iff read?_five

theorem concurrency_eq_ok_iff {n : Int} :
    bounded env concurrencyName 10 maxConcurrency .concurrencyRange = .ok n ↔
      Integer.IsInteger (Variable.text env .concurrency) n ∧ 1 ≤ n ∧ n ≤ 100 :=
  bounded_eq_ok_iff read?_ten

/-! ### Reading all of them -/

/-- The error of a reading that fails. -/
def failure? {α : Type} : Except Config.Error α → Option Config.Error
  | .error e => some e
  | .ok _ => none

theorem failure?_eq_some_iff {α : Type} {r : Except Config.Error α} :
    failure? r = some e ↔ r = .error e := by
  cases r <;> simp [failure?]

theorem failure?_eq_none_iff {α : Type} {r : Except Config.Error α} :
    failure? r = none ↔ ∃ a, r = .ok a := by
  cases r <;> simp [failure?]

/-- The error of one variable. -/
def Variable.error? (env : Environment) : Variable → Option Config.Error
  | .format => failure? (formatOf env)
  | .timeout => failure? (bounded env timeoutName 5 maxTimeout .timeoutRange)
  | .concurrency => failure? (bounded env concurrencyName 10 maxConcurrency .concurrencyRange)

/-- **The first variable with an error decides.** -/
theorem failure?_ofEnvironment (env : Environment) :
    failure? (ofEnvironment env) = Variable.all.findSome? (Variable.error? env) := by
  unfold ofEnvironment Variable.all
  simp only [List.findSome?_cons, List.findSome?_nil, Variable.error?]
  cases formatOf env with
  | error e => rfl
  | ok f =>
    cases bounded env timeoutName 5 maxTimeout .timeoutRange with
    | error e => rfl
    | ok t => cases bounded env concurrencyName 10 maxConcurrency .concurrencyRange <;> rfl

theorem error?_eq_some_iff : v.error? env = some e ↔ v.Refuses (v.text env) e := by
  cases v with
  | format => exact failure?_eq_some_iff.trans formatOf_eq_error_iff
  | timeout => exact failure?_eq_some_iff.trans (bounded_eq_error_iff read?_five)
  | concurrency => exact failure?_eq_some_iff.trans (bounded_eq_error_iff read?_ten)

theorem error?_eq_none_iff : v.error? env = none ↔ v.Accepts (v.text env) := by
  cases v with
  | format => exact failure?_eq_none_iff.trans (exists_congr fun _ => formatOf_eq_ok_iff)
  | timeout => exact failure?_eq_none_iff.trans (exists_congr fun _ => timeout_eq_ok_iff)
  | concurrency => exact failure?_eq_none_iff.trans (exists_congr fun _ => concurrency_eq_ok_iff)

theorem mem_all (v : Variable) : v ∈ Variable.all := by cases v <;> decide

theorem exists_ofEnvironment_iff :
    (∃ c, ofEnvironment env = .ok c) ↔ ∀ v : Variable, v.Accepts (v.text env) := by
  rw [← failure?_eq_none_iff, failure?_ofEnvironment, List.findSome?_eq_none_iff]
  simp only [error?_eq_none_iff, mem_all, true_imp_iff]

/-- An environment is refused with the error of the first variable whose text is
refused. -/
theorem ofEnvironment_eq_error_iff : ofEnvironment env = .error e ↔
    ∃ before v after, Variable.all = before ++ v :: after ∧ v.Refuses (v.text env) e ∧
      ∀ u ∈ before, u.Accepts (u.text env) := by
  rw [← failure?_eq_some_iff, failure?_ofEnvironment, List.findSome?_eq_some_iff]
  simp only [error?_eq_some_iff, error?_eq_none_iff]

/-! ### What an error says -/

namespace Variable

variable {t : Text}

theorem not_accepts_of_refuses (h : v.Refuses t e) : ¬ v.Accepts t := by
  unfold Refuses at h
  unfold Accepts
  split at h
  · rintro ⟨f, hf⟩
    exact h.2 f hf
  · rintro ⟨n, hn, hrange⟩
    rcases h with ⟨-, hno⟩ | ⟨-, m, hm, houtside⟩
    · exact hno n hn
    · rw [← Integer.read?_eq_some_iff] at hn hm
      rw [hn, Option.some.injEq] at hm
      exact houtside (hm ▸ hrange)

/-- A text is refused because it should be an integer and is none, or with the
other error of its variable. -/
theorem Refuses.cases (h : v.Refuses t e) :
    (e = .notInteger v.name t ∧ v.most?.isSome ∧ ∀ n, ¬ Integer.IsInteger t n) ∨
      (e = v.rangeError ∧ ¬ (v.most?.isSome ∧ ∀ n, ¬ Integer.IsInteger t n)) := by
  unfold Refuses at h
  cases hmost : v.most? with
  | none =>
    rw [hmost] at h
    have hv : v = .format := by cases v <;> first | rfl | simp [most?] at hmost
    rw [h.1, hv]
    exact .inr ⟨rfl, by simp⟩
  | some most =>
    rw [hmost] at h
    rcases h with ⟨he, hno⟩ | ⟨he, n, hn, -⟩
    · exact .inl ⟨he, rfl, hno⟩
    · exact .inr ⟨he, fun hall => hall.2 n hn⟩

theorem message_rangeError (v : Variable) : v.name ++ " must be ".toList <+: v.rangeError.message ∧
    ¬ "must be an integer".toList <:+: v.rangeError.message := by
  cases v <;> decide

theorem message_notInteger (name t : Text) : (Config.Error.notInteger name t).message =
    name ++ " must be ".toList ++ ("an integer, got ".toList ++ Text.literal t) := by
  simp [Config.Error.message]

/-- An error begins with the name of its variable. -/
theorem Refuses.begins (h : v.Refuses t e) : v.name ++ " must be ".toList <+: e.message := by
  rcases h.cases with ⟨rfl, -⟩ | ⟨rfl, -⟩
  · rw [message_notInteger]
    exact List.prefix_append _ _
  · exact (message_rangeError v).1

/-- An error asks for an integer if one is wanted and the text is none. -/
theorem Refuses.says_integer_iff (h : v.Refuses t e) : "must be an integer".toList <:+: e.message ↔
    v.most?.isSome ∧ ∀ n, ¬ Integer.IsInteger t n := by
  rcases h.cases with ⟨rfl, hno⟩ | ⟨rfl, hno⟩
  · refine iff_of_true ⟨v.name ++ [' '], ", got ".toList ++ Text.literal t, ?_⟩ hno
    rw [message_notInteger]
    simp
  · exact iff_of_false (message_rangeError v).2 hno

end Variable

/-! ### Accepted and refused environments -/

/-- The variables that are read. -/
def names : List Text := [formatName, resolveName, timeoutName, concurrencyName, verboseName]

/-- What the variables of an accepted environment set. -/
structure Sets (env : Environment) (c : Config) : Prop where
  format : ∀ f, Report.Format.IsNamed (Variable.text env .format) f ↔ f = c.format
  /-- The numbers are those that the texts denote, and they denote no others. -/
  timeout : ∀ n, Integer.IsInteger (Variable.text env .timeout) n ↔ n = c.timeout
  concurrency : ∀ n, Integer.IsInteger (Variable.text env .concurrency) n ↔ n = c.concurrency
  timeout_range : 1 ≤ c.timeout ∧ c.timeout ≤ 60
  concurrency_range : 1 ≤ c.concurrency ∧ c.concurrency ≤ 100
  resolvePtr : c.resolvePtr = true ↔
    ∃ t, env.get? resolveName = some t ∧ Text.lower t ∈ onWords
  verbose : c.verbose = true ↔ ∃ t, env.get? verboseName = some t ∧ Text.lower t ∈ onWords

/-- An error reports a variable: the first whose text is refused. -/
structure Blames (env : Environment) (e : Config.Error) (v : Variable) : Prop where
  first : ∃ before after, Variable.all = before ++ v :: after ∧
    ∀ u ∈ before, u.Accepts (u.text env)
  refused : ¬ v.Accepts (v.text env)
  begins : v.name ++ " must be ".toList <+: e.message
  says_integer_iff : "must be an integer".toList <:+: e.message ↔
    v.most?.isSome ∧ ∀ n, ¬ Integer.IsInteger (v.text env) n

theorem switch_eq_true_iff {name : Text} : switch env name = true ↔
    ∃ t, env.get? name = some t ∧ Text.lower t ∈ onWords := by
  unfold switch
  cases env.get? name <;> simp

theorem isInteger_iff_eq {t : Text} {m : Int} (h : Integer.IsInteger t m) :
    ∀ n, Integer.IsInteger t n ↔ n = m := by
  intro n
  rw [← Integer.read?_eq_some_iff] at h ⊢
  rw [h, Option.some.injEq, eq_comm]

theorem isNamed_iff_eq {t : Text} (h : Report.Format.IsNamed t f) :
    ∀ f', Report.Format.IsNamed t f' ↔ f' = f := by
  intro f'
  rw [← Report.Format.lower_trim_eq_name_iff, ← Report.Format.ofName?_eq_some_iff] at h ⊢
  rw [h, Option.some.injEq, eq_comm]

theorem sets_of_ofEnvironment (h : ofEnvironment env = .ok c) : Sets env c := by
  obtain ⟨hformat, hresolve, htimeout, hconcurrency, hverbose⟩ := ofEnvironment_eq_ok_iff.mp h
  obtain ⟨hseconds, htimeout⟩ := timeout_eq_ok_iff.mp htimeout
  obtain ⟨hworkers, hconcurrency⟩ := concurrency_eq_ok_iff.mp hconcurrency
  exact {
    format := isNamed_iff_eq (formatOf_eq_ok_iff.mp hformat)
    timeout := isInteger_iff_eq hseconds
    concurrency := isInteger_iff_eq hworkers
    timeout_range := htimeout
    concurrency_range := hconcurrency
    resolvePtr := by rw [← hresolve, switch_eq_true_iff]
    verbose := by rw [← hverbose, switch_eq_true_iff] }

theorem exists_blames (h : ofEnvironment env = .error e) : ∃ v, Blames env e v := by
  obtain ⟨before, v, after, hall, hv, hbefore⟩ := ofEnvironment_eq_error_iff.mp h
  exact ⟨v, ⟨before, after, hall, hbefore⟩, Variable.not_accepts_of_refuses hv, hv.begins,
    hv.says_integer_iff⟩

/-- What is read depends on the texts of the variables that can be refused and on
whether the switches are on. -/
theorem ofEnvironment_eq_of_switch {env' : Environment}
    (hchecked : ∀ v : Variable, env'.get? v.name = env.get? v.name)
    (hresolve : switch env' resolveName = switch env resolveName)
    (hverbose : switch env' verboseName = switch env verboseName) :
    ofEnvironment env' = ofEnvironment env := by
  have hformat : env'.get? formatName = env.get? formatName := hchecked .format
  have htimeout : env'.get? timeoutName = env.get? timeoutName := hchecked .timeout
  have hconcurrency : env'.get? concurrencyName = env.get? concurrencyName := hchecked .concurrency
  unfold ofEnvironment formatOf bounded integer
  rw [hformat, htimeout, hconcurrency, hresolve, hverbose]

theorem switch_congr {env' : Environment} {name : Text} (h : env'.get? name = env.get? name) :
    switch env' name = switch env name := by
  unfold switch
  rw [h]

/-- Variables that are not read make no difference. -/
theorem ofEnvironment_congr {env' : Environment} (h : ∀ name ∈ names, env'.get? name = env.get? name) :
    ofEnvironment env' = ofEnvironment env := by
  have hnames : ∀ v : Variable, v.name ∈ names := by
    intro v
    cases v <;> simp [names, Variable.name]
  exact ofEnvironment_eq_of_switch (fun v => h v.name (hnames v))
    (switch_congr (h resolveName (by simp [names]))) (switch_congr (h verboseName (by simp [names])))

/-- **An environment is accepted, or its first bad variable is reported.** It is
accepted if the form is named and both numbers are integers in their ranges, and
then it sets what its texts denote; if not, the error begins with the name of the
first variable that is refused and asks for an integer if its text should be one
and is not. Variables other than the five make no difference. -/
theorem ofEnvironment_decides (env : Environment) :
    ((∃ c, ofEnvironment env = .ok c) ↔ ∀ v : Variable, v.Accepts (v.text env)) ∧
    (∀ c, ofEnvironment env = .ok c → Sets env c) ∧
    (∀ e, ofEnvironment env = .error e → ∃ v, Blames env e v) ∧
    ∀ env' : Environment, (∀ name ∈ names, env'.get? name = env.get? name) →
      ofEnvironment env' = ofEnvironment env :=
  ⟨exists_ofEnvironment_iff, fun _ => sets_of_ofEnvironment, fun _ => exists_blames,
    fun _ => ofEnvironment_congr⟩

/-- White space, a sign, leading zeros, an underscore and Arabic digits; and two
bad variables, the first of which is an integer out of range. -/
theorem ofEnvironment_decides_digits :
    let env : Environment := [(formatName, " Yaml\n".toList), (timeoutName, "\t+0_\u0661\u0662 ".toList),
      (concurrencyName, "007".toList)]
    let bad : Environment := [(timeoutName, "61".toList), (concurrencyName, "1__0".toList)]
    let wider : Environment := ("PATH".toList, "/bin".toList) :: bad
    (ofEnvironment env = .ok ⟨.yaml, false, 12, 7, false⟩ ∧ Sets env ⟨.yaml, false, 12, 7, false⟩) ∧
    (ofEnvironment bad = .error .timeoutRange ∧ ∃ v, Blames bad .timeoutRange v) ∧
    (∀ name ∈ names, wider.get? name = bad.get? name) ∧ ofEnvironment wider = ofEnvironment bad := by
  intro env bad wider
  have henv : ofEnvironment env = .ok ⟨.yaml, false, 12, 7, false⟩ := by decide +kernel
  have hbad : ofEnvironment bad = .error .timeoutRange := by decide +kernel
  have hsame : ∀ name ∈ names, wider.get? name = bad.get? name := by decide +kernel
  exact ⟨⟨henv, (ofEnvironment_decides env).2.1 _ henv⟩,
    ⟨hbad, (ofEnvironment_decides bad).2.2.1 _ hbad⟩, hsame,
    (ofEnvironment_decides bad).2.2.2 wider hsame⟩

end Config
end ReverseDns
