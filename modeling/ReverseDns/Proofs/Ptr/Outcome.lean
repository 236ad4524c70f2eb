/-
# How lookups end

A lookup starts its resolver and asks it, and what comes of the two is one reply. `Ends`
has a constructor for each thing that can come of a reply: host names in order; no host
names; a failure that says for certain that there are none; any other failure, with a word
for it and a warning; and a fault, which goes on to the caller. What a warning says is
written out here field by field (`Ptr.warning`). A lookup ends as its reply
says and in no other way (`Ptr.lookup_eq_iff`). So its result has host names exactly if it
is resolved, and a word exactly if it is unknown (`Ptr.Ends.answers`), and it warns exactly
if its result is unknown (`Ptr.Ends.warns_iff`).

Key definitions: `Ptr.Resolver.reply`, `Ptr.Failure.Word`, `Ptr.warning`, `Ptr.Ends`,
`Ptr.Result.Answers`.
Key theorems: `Ptr.ends_iff`, `Ptr.lookup_eq_iff`, `Ptr.Ends.answers`,
`Ptr.Ends.warns_iff`, `Ptr.lookup_ends`.
-/
import Mathlib.Tactic.SplitIfs
import ReverseDns.Proofs.Ptr.Lookup
import ReverseDns.Proofs.Text.Order

namespace ReverseDns
namespace Ptr

/-- What comes of asking a resolver for a name, starting it included. -/
def Resolver.reply (r : Resolver) (name : Text) : Except Trouble (List Text) :=
  match r.start with
  | some trouble => .error trouble
  | none => r.answer name

/-- The word for a failure that leaves a result unknown. -/
inductive Failure.Word (f : Failure) : Text → Prop
  | timeout (late : f.isA .timeout = true) : Word f "timeout".toList
  | noNameservers (inTime : f.isA .timeout = false) (unserved : f.isA .noNameservers = true) :
      Word f "no_nameservers".toList
  | noConfiguration (inTime : f.isA .timeout = false) (served : f.isA .noNameservers = false)
      (unconfigured : f.isA .noConfiguration = true) : Word f "no_resolver_configuration".toList
  | other (inTime : f.isA .timeout = false) (served : f.isA .noNameservers = false)
      (configured : f.isA .noConfiguration = false) : Word f "unknown_error".toList

/-- The warning of a lookup that stays without a definite answer: the name that was looked
up, and the word for what was in the way. -/
def warning (name word : Text) : Log.Record where
  logger := "revaddr.services.logger".toList
  level := .warning
  message := "PTR lookup failed".toList
  fault := none
  extra := [("arpa_name".toList, .str name), ("response_data".toList, .str word)]

/-- What a lookup of a name ends in, and what it logs, by the reply to it. -/
inductive Ends (name : Text) :
    Except Trouble (List Text) → Except Fault Result → List Log.Record → Prop
  | resolved {targets hostnames : List Text} (nonempty : targets ≠ []) (perm : hostnames.Perm targets)
      (sorted : hostnames.Pairwise Text.InOrder) :
      Ends name (.ok targets) (.ok ⟨name, .resolved, hostnames, []⟩) []
  | empty : Ends name (.ok []) (.ok ⟨name, .notFound, [], []⟩) []
  | definite {f : Failure} (certain : f.isA .nonexistentName = true ∨ f.isA .noAnswer = true) :
      Ends name (.error (.failure f)) (.ok ⟨name, .notFound, [], []⟩) []
  | unknown {f : Failure} {word : Text} (existing : f.isA .nonexistentName = false)
      (answered : f.isA .noAnswer = false) (said : f.Word word) :
      Ends name (.error (.failure f)) (.ok ⟨name, .unknown, [], word⟩) [warning name word]
  | fault (f : Fault) : Ends name (.error (.fault f)) (.error f) []

/-- A result for a name has host names exactly if it is resolved, and a reason
exactly if it is unknown. -/
structure Result.Answers (name : Text) (r : Result) : Prop where
  name_eq : r.name = name
  hostnames : r.hostnames ≠ [] ↔ r.status = .resolved
  responseData : r.responseData ≠ [] ↔ r.status = .unknown

variable {resolver : Resolver} {name word : Text} {timeout : Int} {f : Failure}
  {targets targets' : List Text} {reply : Except Trouble (List Text)}
  {outcome : Except Fault Result} {records : List Log.Record} {r : Result}

/-! ### The words -/

theorem Failure.category_eq (f : Failure) : (Trouble.failure f).category =
    if f.isA .timeout then "timeout".toList
    else if f.isA .noNameservers then "no_nameservers".toList
    else if f.isA .noConfiguration then "no_resolver_configuration".toList
    else "unknown_error".toList := rfl

theorem Failure.word_category (f : Failure) : f.Word (Trouble.failure f).category := by
  rw [category_eq]
  split_ifs with late unserved unconfigured
  · exact .timeout late
  · exact .noNameservers (Bool.eq_false_iff.mpr late) unserved
  · exact .noConfiguration (Bool.eq_false_iff.mpr late)
      (Bool.eq_false_iff.mpr unserved) unconfigured
  · exact .other (Bool.eq_false_iff.mpr late) (Bool.eq_false_iff.mpr unserved)
      (Bool.eq_false_iff.mpr unconfigured)

/-- Each failure has one word. -/
theorem Failure.Word.eq_category (h : f.Word word) : word = (Trouble.failure f).category := by
  rw [Failure.category_eq]
  cases h with
  | timeout late => rw [if_pos late]
  | noNameservers inTime unserved => rw [inTime, if_neg Bool.false_ne_true, if_pos unserved]
  | noConfiguration inTime served unconfigured =>
    rw [inTime, served, if_neg Bool.false_ne_true, if_neg Bool.false_ne_true, if_pos unconfigured]
  | other inTime served configured => rw [inTime, served, configured]; rfl

theorem Failure.Word.ne_nil (h : f.Word word) : word ≠ [] := by
  cases h <;> decide

/-! ### The outcome -/

theorem classify_ok (h : targets ≠ []) :
    classify name (.ok targets) = .ok ⟨name, .resolved, targets.mergeSort Text.le, []⟩ := by
  cases targets with
  | nil => exact absurd rfl h
  | cons target others => rfl

theorem classify_failure : classify name (.error (.failure f)) =
    if f.isDefinite then .ok ⟨name, .notFound, [], []⟩
    else .ok ⟨name, .unknown, [], (Trouble.failure f).category⟩ := rfl

theorem Failure.isDefinite_iff :
    f.isDefinite = true ↔ f.isA .nonexistentName = true ∨ f.isA .noAnswer = true := by
  rw [isDefinite, Bool.or_eq_true]

/-- **A reply has one end.** -/
theorem ends_iff : Ends name reply outcome records ↔
    outcome = classify name reply ∧ records = logged outcome := by
  constructor
  · intro h
    cases h with
    | resolved nonempty perm sorted =>
      rw [classify_ok nonempty, Text.mergeSort_eq_iff.mpr ⟨perm, sorted⟩]
      exact ⟨rfl, rfl⟩
    | empty => exact ⟨rfl, rfl⟩
    | definite certain =>
      rw [classify_failure, if_pos (Failure.isDefinite_iff.mpr certain)]
      exact ⟨rfl, rfl⟩
    | @unknown f _ existing answered said =>
      have hindefinite : ¬ f.isDefinite = true := by
        rw [Failure.isDefinite_iff, existing, answered]
        simp
      rw [classify_failure, if_neg hindefinite, said.eq_category]
      exact ⟨rfl, rfl⟩
    | fault f => exact ⟨rfl, rfl⟩
  · rintro ⟨rfl, rfl⟩
    match reply with
    | .ok [] => exact .empty
    | .ok (target :: others) =>
      obtain ⟨perm, sorted⟩ := Text.mergeSort_eq_iff.mp rfl
      exact .resolved (List.cons_ne_nil target others) perm sorted
    | .error (.fault f) => exact .fault f
    | .error (.failure f) =>
      rw [classify_failure]
      split_ifs with hdefinite
      · exact .definite (Failure.isDefinite_iff.mp hdefinite)
      · simp only [Failure.isDefinite_iff, not_or, Bool.not_eq_true] at hdefinite
        exact .unknown hdefinite.1 hdefinite.2 f.word_category

theorem outcome_lookup :
    (lookup resolver name timeout).outcome = classify name (resolver.reply name) := by
  unfold lookup Resolver.reply
  cases resolver.start <;> rfl

/-- **A lookup ends as the reply to it says**, and in no other way. -/
theorem lookup_eq_iff : Ends name (resolver.reply name) outcome records ↔
    (lookup resolver name timeout).outcome = outcome ∧
      (lookup resolver name timeout).records = records := by
  rw [ends_iff, records_lookup, outcome_lookup]
  constructor
  · rintro ⟨rfl, rfl⟩
    exact ⟨rfl, rfl⟩
  · rintro ⟨rfl, rfl⟩
    exact ⟨rfl, rfl⟩

theorem ends_lookup (resolver : Resolver) (name : Text) (timeout : Int) :
    Ends name (resolver.reply name) (lookup resolver name timeout).outcome
      (lookup resolver name timeout).records :=
  lookup_eq_iff.mpr ⟨rfl, rfl⟩

/-! ### What an end tells -/

namespace Ends

theorem answers (h : Ends name reply (.ok r) records) : r.Answers name := by
  cases h with
  | resolved nonempty perm sorted =>
    refine ⟨rfl, iff_of_true (fun hnil => nonempty ?_) rfl, by simp⟩
    exact List.nil_perm.mp (hnil ▸ perm)
  | empty => exact ⟨rfl, by simp, by simp⟩
  | definite certain => exact ⟨rfl, by simp, by simp⟩
  | unknown existing answered said => exact ⟨rfl, by simp, iff_of_true said.ne_nil rfl⟩

/-- **Only answers resolve a name.** -/
theorem resolved_iff (h : Ends name reply outcome records) :
    (∃ r, outcome = .ok r ∧ r.status = .resolved) ↔ ∃ targets, reply = .ok targets ∧ targets ≠ [] := by
  cases h with
  | @resolved targets hostnames nonempty perm sorted =>
    exact iff_of_true ⟨_, rfl, rfl⟩ ⟨targets, rfl, nonempty⟩
  | empty => simp
  | definite certain => simp
  | unknown existing answered said => simp
  | fault f => simp

/-- **Only an unknown result is warned of**, by one record. -/
theorem warns_iff {record : Log.Record} (h : Ends name reply outcome records) :
    record ∈ records ↔
      ∃ r, outcome = .ok r ∧ r.status = .unknown ∧ record = warning name r.responseData := by
  cases h with
  | resolved nonempty perm sorted => simp
  | empty => simp
  | definite certain => simp
  | unknown existing answered said => simp
  | fault f => simp

theorem length_le_one (h : Ends name reply outcome records) : records.length ≤ 1 := by
  cases h <;> simp

/-- **How the answers are arranged does not show.** -/
theorem of_perm (h : Ends name (.ok targets) outcome records) (hperm : targets.Perm targets') :
    Ends name (.ok targets') outcome records := by
  cases h with
  | resolved nonempty perm sorted =>
    exact .resolved (fun hnil => nonempty (List.perm_nil.mp (hnil ▸ hperm))) (perm.trans hperm) sorted
  | empty => rw [List.nil_perm.mp hperm]; exact .empty

theorem exists_failure (h : Ends name reply (.ok r) records) (hr : r.isUnknown = true) :
    ∃ f, reply = .error (.failure f) ∧ r = ⟨name, .unknown, [], (Trouble.failure f).category⟩ := by
  cases h with
  | resolved nonempty perm sorted => simp [Result.isUnknown] at hr
  | empty => simp [Result.isUnknown] at hr
  | definite certain => simp [Result.isUnknown] at hr
  | @unknown f word existing answered said => exact ⟨f, rfl, by rw [said.eq_category]⟩

theorem reply_eq {f : Fault} (h : Ends name reply (.error f) records) :
    reply = .error (.fault f) := by
  cases h
  rfl

end Ends

theorem ends_of_lookup (h : (lookup resolver name timeout).outcome = outcome) :
    Ends name (resolver.reply name) outcome (lookup resolver name timeout).records :=
  h ▸ ends_lookup resolver name timeout

theorem answers_of_lookup (h : (lookup resolver name timeout).outcome = .ok r) : r.Answers name :=
  (ends_of_lookup h).answers

/-- An unknown result is of a failure of the name system. -/
theorem exists_failure_of_lookup (h : (lookup resolver name timeout).outcome = .ok r)
    (hr : r.isUnknown = true) : ∃ f, resolver.reply name = .error (.failure f) ∧
      r = ⟨name, .unknown, [], (Trouble.failure f).category⟩ :=
  (ends_of_lookup h).exists_failure hr

theorem reply_eq_of_lookup_eq_error {f : Fault}
    (h : (lookup resolver name timeout).outcome = .error f) :
    resolver.reply name = .error (.fault f) :=
  (ends_of_lookup h).reply_eq

/-- **How lookups end.** A lookup ends as the reply to it says, whether its resolver did
not start or was asked. It resolves the name exactly if the reply has host names, which it
puts in order, however the reply arranges them; it leaves one warning exactly if its result
is unknown, of the name and the word; and a result has host names or a word as its status
says. -/
theorem lookup_ends (resolver other : Resolver) (name : Text) (timeout : Int) :
    let l := lookup resolver name timeout
    (∀ outcome records, Ends name (resolver.reply name) outcome records ↔
      l.outcome = outcome ∧ l.records = records) ∧
    ((∃ r, l.outcome = .ok r ∧ r.status = .resolved) ↔
      ∃ targets, resolver.reply name = .ok targets ∧ targets ≠ []) ∧
    (∀ targets targets', resolver.reply name = .ok targets → other.reply name = .ok targets' →
      targets.Perm targets' →
      (lookup other name timeout).outcome = l.outcome ∧
        (lookup other name timeout).records = l.records) ∧
    (∀ record, record ∈ l.records ↔
      ∃ r, l.outcome = .ok r ∧ r.status = .unknown ∧ record = warning name r.responseData) ∧
    l.records.length ≤ 1 ∧
    ∀ r, l.outcome = .ok r → r.Answers name := by
  intro l
  have hl : Ends name (resolver.reply name) l.outcome l.records := ends_lookup resolver name timeout
  have hperm : ∀ targets targets', resolver.reply name = .ok targets →
      other.reply name = .ok targets' → targets.Perm targets' →
      Ends name (other.reply name) l.outcome l.records := by
    intro targets targets' htargets htargets' hperm
    rw [htargets']
    rw [htargets] at hl
    exact hl.of_perm hperm
  exact ⟨fun _ _ => lookup_eq_iff, hl.resolved_iff,
    fun targets targets' h h' hp => lookup_eq_iff.mp (hperm targets targets' h h' hp),
    fun _ => hl.warns_iff, hl.length_le_one, fun _ => answers_of_lookup⟩

/-- A reply that names a host twice and another that arranges it differently; and a
resolver that does not start, by a failure of two classes. -/
theorem lookup_ends_rearranged :
    let name := "1.0.0.10.in-addr.arpa".toList
    let hosts := ["b.", "B.", "a.", "b."].map String.toList
    let resolver : Resolver := { answer := fun _ => .ok hosts }
    let other : Resolver := { answer := fun _ => .ok hosts.reverse }
    let broken : Resolver :=
      { start := some (.failure ⟨[.noNameservers, .timeout]⟩), answer := fun _ => .ok hosts }
    let sorted : Result := ⟨name, .resolved, ["B.", "a.", "b.", "b."].map String.toList, []⟩
    let late : Result := ⟨name, .unknown, [], "timeout".toList⟩
    (lookup resolver name 5).outcome = .ok sorted ∧ (lookup other name 5).outcome = .ok sorted ∧
      (lookup resolver name 5).records = [] ∧ sorted.Answers name ∧
      (lookup broken name 5).outcome = .ok late ∧
      (lookup broken name 5).records = [warning name "timeout".toList] ∧
      late.Answers name := by
  intro name hosts resolver other broken sorted late
  obtain ⟨hends, -, hperm, -, -, hanswers⟩ := lookup_ends resolver other name 5
  obtain ⟨hbroken, -, -, -, -, hanswers'⟩ := lookup_ends broken other name 5
  have hsorted : Ends name (resolver.reply name) (.ok sorted) [] :=
    .resolved (by decide) (by decide) (by decide)
  have hlate : Ends name (broken.reply name) (.ok late) [warning name "timeout".toList] :=
    .unknown (by decide) (by decide) (.timeout (by decide))
  obtain ⟨houtcome, hrecords⟩ := (hends _ _).mp hsorted
  obtain ⟨houtcome', hrecords'⟩ := (hbroken _ _).mp hlate
  have hother := (hperm hosts hosts.reverse rfl rfl hosts.reverse_perm.symm).1.trans houtcome
  exact ⟨houtcome, hother, hrecords, hanswers _ houtcome, houtcome', hrecords',
    hanswers' _ houtcome'⟩

end Ptr
end ReverseDns
