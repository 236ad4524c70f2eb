/-
# A word that a switch does not know turns it off

Seven words are meant for the two switches, in any letter case: three turn a switch
on, four turn it off. Any other text is as bad for a switch as an unknown form or a
number out of range is for the variable that it is set to. The three variables that
can be refused never have a bad text unnoticed. A switch does: a text that it does
not know is read as `false` is, without an error. So the error for a bad text is made
exactly if one of the three has one (`Config.refuses_offender_iff`).

Key definitions: `Config.Switch.IsKnown`, `Config.Setting.Allows`, `Config.Offends`.
Key theorems: `Config.offends_checked_iff`, `Config.ofEnvironment_set_unknown`,
`Config.refuses_offender_iff`.
-/
import ReverseDns.Proofs.Config.Acceptance

namespace ReverseDns

/-! ### Setting a variable -/

/-- The environment with a variable set to a text. -/
def Environment.set (env : Environment) (name value : Text) : Environment := env ++ [(name, value)]

theorem Environment.get?_set (env : Environment) (name value other : Text) :
    (env.set name value).get? other = if name = other then some value else env.get? other := by
  unfold Environment.set Environment.get?
  rw [List.reverse_append, List.reverse_singleton, List.singleton_append, List.find?_cons]
  by_cases h : name = other
  · rw [if_pos h, beq_iff_eq.mpr h]
    rfl
  · rw [if_neg h, beq_false_of_ne h]

namespace Config

/-! ### The texts of a switch -/

/-- The variables that are on or off. -/
inductive Switch
  | resolvePtr
  | verbose
deriving DecidableEq, Repr

namespace Switch

def name : Switch → Text
  | .resolvePtr => resolveName
  | .verbose => verboseName

/-- Whether a configuration has the switch on. -/
def isOn (c : Config) : Switch → Bool
  | .resolvePtr => c.resolvePtr
  | .verbose => c.verbose

/-- The words that are meant to turn a switch off, the empty one among them. -/
def offWords : List Text := ["false", "0", "no", ""].map String.toList

/-- A text is a word for on or for off, in any letter case. -/
def IsKnown (t : Text) : Prop := t.map Char.toLower ∈ onWords ++ offWords

instance (t : Text) : Decidable (IsKnown t) := inferInstanceAs (Decidable (_ ∈ _))

end Switch

/-! ### Bad texts -/

/-- The variables that are read: those that can be refused and the switches. -/
inductive Setting
  | checked (v : Variable)
  | switch (s : Switch)
deriving DecidableEq, Repr

namespace Setting

def name : Setting → Text
  | checked v => v.name
  | switch s => s.name

/-- The texts that a variable is meant to have. -/
def Allows : Setting → Text → Prop
  | checked v => v.Accepts
  | switch _ => Switch.IsKnown

end Setting

/-- A variable is set to a text that it is not meant to have. -/
def Offends (env : Environment) (x : Setting) : Prop :=
  ∃ t, env.get? x.name = some t ∧ ¬ x.Allows t

variable {env : Environment} {c : Config} {e : Config.Error} {v : Variable} {s : Switch}
  {name t : Text}

/-- Every default is a text that its variable may have. -/
theorem Variable.accepts_default (v : Variable) : v.Accepts v.default := by
  have hnone : v.error? [] = none := by cases v <;> decide
  exact error?_eq_none_iff.mp hnone

/-- A variable that can be refused has a bad text if what is read for it is bad. -/
theorem offends_checked_iff : Offends env (.checked v) ↔ ¬ v.Accepts (v.text env) := by
  unfold Offends Variable.text
  show (∃ t, env.get? v.name = some t ∧ ¬ v.Accepts t) ↔ _
  cases env.get? v.name with
  | none => simp [v.accepts_default]
  | some t => simp

/-! ### Reading a switch -/

theorem isPlain_of_mem_onWords {word : Text} (h : word ∈ onWords) : ∀ c ∈ word, Text.IsPlain c := by
  have hall : (onWords.all fun w => w.all fun c => decide (Text.IsPlain c)) = true := by decide
  intro c hc
  exact of_decide_eq_true (List.all_eq_true.mp (List.all_eq_true.mp hall word h) c hc)

theorem map_toLower_mem_onWords (h : Text.lower t ∈ onWords) : t.map Char.toLower ∈ onWords := by
  rwa [← (Text.lower_eq_iff (isPlain_of_mem_onWords h)).mp rfl] at h

/-- A switch is off for a text that it does not know. -/
theorem switch_eq_false (hset : env.get? name = some t) (h : ¬ Switch.IsKnown t) :
    switch env name = false := by
  rw [← Bool.not_eq_true, switch_eq_true_iff]
  rintro ⟨u, hu, hon⟩
  rw [hset, Option.some.injEq] at hu
  exact h (List.mem_append_left _ (map_toLower_mem_onWords (hu ▸ hon)))

theorem isOn_eq_switch (h : ofEnvironment env = .ok c) : s.isOn c = switch env s.name := by
  obtain ⟨-, hresolve, -, -, hverbose⟩ := ofEnvironment_eq_ok_iff.mp h
  cases s with
  | resolvePtr => exact hresolve.symm
  | verbose => exact hverbose.symm

/-- A text that it does not know leaves a switch as `false` does, and the others as
they are. -/
theorem switch_set_unknown (env : Environment) (s : Switch) (name : Text) (h : ¬ Switch.IsKnown t) :
    switch (env.set s.name t) name = switch (env.set s.name "false".toList) name := by
  by_cases hname : s.name = name
  · have hset : (env.set s.name t).get? name = some t := by rw [Environment.get?_set, if_pos hname]
    have hfalse : switch (env.set s.name "false".toList) name = false := by
      unfold switch
      rw [Environment.get?_set, if_pos hname]
      decide
    rw [switch_eq_false hset h, hfalse]
  · apply switch_congr
    rw [Environment.get?_set, Environment.get?_set, if_neg hname, if_neg hname]

/-- **What a switch does not know it takes for `false`.** -/
theorem ofEnvironment_set_unknown (env : Environment) (s : Switch) (h : ¬ Switch.IsKnown t) :
    ofEnvironment (env.set s.name t) = ofEnvironment (env.set s.name "false".toList) := by
  refine ofEnvironment_eq_of_switch (fun v => ?_) (switch_set_unknown env s resolveName h)
    (switch_set_unknown env s verboseName h)
  have hne : s.name ≠ v.name := by cases v <;> cases s <;> decide
  rw [Environment.get?_set, Environment.get?_set, if_neg hne, if_neg hne]

/-! ### Bad texts that are refused -/

/-- An error names a variable that can be refused and has a bad text. -/
theorem exists_offends_of_error (h : ofEnvironment env = .error e) :
    ∃ v : Variable, Offends env (.checked v) ∧ v.name <:+: e.message := by
  obtain ⟨v, hv⟩ := exists_blames h
  exact ⟨v, offends_checked_iff.mpr hv.refused,
    ((List.prefix_append _ _).trans hv.begins).isInfix⟩

theorem exists_error_of_offends (h : Offends env (.checked v)) :
    ∃ e, ofEnvironment env = .error e := by
  cases hread : ofEnvironment env with
  | error e => exact ⟨e, rfl⟩
  | ok c =>
    have haccepts := exists_ofEnvironment_iff.mp ⟨c, hread⟩ v
    exact absurd haccepts (offends_checked_iff.mp h)

theorem exists_ok_of_not_offends (h : ∀ v : Variable, ¬ Offends env (.checked v)) :
    ∃ c, ofEnvironment env = .ok c :=
  exists_ofEnvironment_iff.mpr fun v => Classical.not_not.mp (mt offends_checked_iff.mpr (h v))

/-- **Only the bad texts of switches go unnoticed.** An environment is refused with the
name of a variable that has a bad text exactly if a variable that is no switch has one.
If only switches have bad texts, the environment is accepted and these switches are
off, as each text that a switch does not know does what `false` does. -/
theorem refuses_offender_iff (env : Environment) :
    ((∃ e x, ofEnvironment env = .error e ∧ Offends env x ∧ x.name <:+: e.message) ↔
      ∃ v, Offends env (.checked v)) ∧
    (∀ s, Offends env (.switch s) → (∀ v, ¬ Offends env (.checked v)) →
      ∃ c, ofEnvironment env = .ok c ∧ s.isOn c = false) ∧
    ∀ (s : Switch) (t : Text), ¬ Switch.IsKnown t →
      ofEnvironment (env.set s.name t) = ofEnvironment (env.set s.name "false".toList) := by
  refine ⟨⟨?_, ?_⟩, ?_, fun s t => ofEnvironment_set_unknown env s⟩
  · rintro ⟨e, -, he, -⟩
    obtain ⟨v, hv, -⟩ := exists_offends_of_error he
    exact ⟨v, hv⟩
  · rintro ⟨v, hv⟩
    obtain ⟨e, he⟩ := exists_error_of_offends hv
    obtain ⟨u, hu, hname⟩ := exists_offends_of_error he
    exact ⟨e, .checked u, he, hu, hname⟩
  · rintro s ⟨t, hset, ht⟩ hchecked
    obtain ⟨c, hc⟩ := exists_ok_of_not_offends hchecked
    refine ⟨c, hc, ?_⟩
    rw [isOn_eq_switch hc]
    exact switch_eq_false hset ht

/-- A switch that is set to `on`, once by itself and once beside a number out of range. -/
theorem refuses_offender_iff_on :
    let env : Environment := [(resolveName, "on".toList)]
    let worse : Environment := [(resolveName, "on".toList), (timeoutName, "61".toList)]
    (Offends env (.switch .resolvePtr) ∧ (∀ v, ¬ Offends env (.checked v)) ∧
      ∃ c, ofEnvironment env = .ok c ∧ Switch.isOn c .resolvePtr = false) ∧
    (Offends worse (.switch .resolvePtr) ∧ Offends worse (.checked .timeout) ∧
      ∃ e x, ofEnvironment worse = .error e ∧ Offends worse x ∧ x.name <:+: e.message) ∧
    ¬ Switch.IsKnown "on".toList ∧
      ofEnvironment (worse.set verboseName "on".toList) =
        ofEnvironment (worse.set verboseName "false".toList) := by
  intro env worse
  have hunknown : ¬ Switch.IsKnown "on".toList := by decide
  have hoffends : Offends env (.switch .resolvePtr) := ⟨_, rfl, hunknown⟩
  have hchecked : ∀ v, ¬ Offends env (.checked v) := fun v => by
    have hnone : v.error? env = none := by cases v <;> decide
    rw [offends_checked_iff]
    exact not_not_intro (error?_eq_none_iff.mp hnone)
  have htimeout : Offends worse (.checked .timeout) := by
    have herror : Variable.error? worse .timeout = some .timeoutRange := by decide +kernel
    exact offends_checked_iff.mpr (Variable.not_accepts_of_refuses (error?_eq_some_iff.mp herror))
  obtain ⟨-, hoff, -⟩ := refuses_offender_iff env
  obtain ⟨hiff, -, hfalse⟩ := refuses_offender_iff worse
  exact ⟨⟨hoffends, hchecked, hoff .resolvePtr hoffends hchecked⟩,
    ⟨⟨_, rfl, hunknown⟩, htimeout, hiff.mpr ⟨.timeout, htimeout⟩⟩, hunknown,
    hfalse .verbose _ hunknown⟩

/-- A switch that is set to `on` is not refused. -/
theorem not_refuses_every_offender :
    ¬ ∀ env, (∃ x, Offends env x) →
      ∃ e x, ofEnvironment env = .error e ∧ Offends env x ∧ x.name <:+: e.message := by
  intro h
  have hunknown : ¬ Switch.IsKnown "on".toList := by decide
  have hok : ofEnvironment [(resolveName, "on".toList)] = .ok ⟨.json, false, 5, 10, false⟩ := by
    decide +kernel
  obtain ⟨e, -, he, -⟩ := h [(resolveName, "on".toList)] ⟨.switch .resolvePtr, _, rfl, hunknown⟩
  rw [hok] at he
  cases he

end Config
end ReverseDns
