/-
# The settings of an accepted environment

An environment is accepted if its form of report and its two integers are read,
and the settings are then what its five variables say
(`Config.ofEnvironment_eq_ok_iff`). The integers are in their ranges, so there is
always a worker for the lookups.

Key theorems: `Config.ofEnvironment_eq_ok_iff`, `Config.one_le_concurrency`.
-/
import ReverseDns.Config

namespace ReverseDns
namespace Config

variable {env : Environment} {c : Config}

theorem range_of_bounded {name : Text} {default most n : Int} {outside : Error}
    (h : bounded env name default most outside = .ok n) : 1 ≤ n ∧ n ≤ most := by
  unfold bounded at h
  split at h
  · simp at h
  · split at h
    · rename_i hn
      obtain rfl := Except.ok.inj h
      exact hn
    · simp at h

/-- **Each setting is what its variable says**, if all are read. -/
theorem ofEnvironment_eq_ok_iff : ofEnvironment env = .ok c ↔
    formatOf env = .ok c.format ∧ switch env resolveName = c.resolvePtr ∧
      bounded env timeoutName 5 maxTimeout .timeoutRange = .ok c.timeout ∧
      bounded env concurrencyName 10 maxConcurrency .concurrencyRange = .ok c.concurrency ∧
      switch env verboseName = c.verbose := by
  obtain ⟨format, resolvePtr, timeout, concurrency, verbose⟩ := c
  unfold ofEnvironment
  cases formatOf env with
  | error e => simp [bind, Except.bind]
  | ok f =>
    cases bounded env timeoutName 5 maxTimeout .timeoutRange with
    | error e => simp [bind, Except.bind]
    | ok t =>
      cases bounded env concurrencyName 10 maxConcurrency .concurrencyRange with
      | error e => simp [bind, Except.bind]
      | ok n =>
        simp only [bind, Except.bind, pure, Except.pure, Except.ok.injEq, Config.mk.injEq]

theorem one_le_concurrency (h : ofEnvironment env = .ok c) : 1 ≤ c.concurrency := by
  obtain ⟨-, -, -, hconcurrency, -⟩ := ofEnvironment_eq_ok_iff.mp h
  exact (range_of_bounded hconcurrency).1

end Config
end ReverseDns
