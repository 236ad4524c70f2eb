/-
# Chains of errors

An error and its causes make a chain of any length, and what is known of the error is
known from the chain: the message is the headlines of its errors with colons between them
(`Error.message_eq_join`), the root is the last of them (`Error.getLast?_chain`), and
looking for a class finds the first of them whose class lies at or below it
(`Error.find?_eq_some_iff`). One class lies below another if steps from a class to the one
that it extends lead there (`Error.Class.includes_iff`).

Key definitions: `Error.Class.Extends`, `Error.Class.IsBelow`.
Key theorems: `Error.message_eq_join`, `Error.getLast?_chain`,
`Error.Class.includes_iff`, `Error.find?_eq_some_iff`, `Error.chain_compositional`.
-/
import Mathlib.Logic.Relation
import ReverseDns.Error.Saved
import ReverseDns.Proofs.Text.Words

namespace ReverseDns
namespace Error

variable {e x : Error}

/-! ### The chain and the message -/

/-- The chain goes on with the chain of the cause. -/
theorem chain_eq_cons (e : Error) : e.chain = e :: e.cause?.elim [] chain := by cases e <;> rfl

theorem getLast?_chain (e : Error) : e.chain.getLast? = some e.root := by
  induction e with
  | malformedBy subject value cause ih =>
    have hne : cause.chain ≠ [] := by
      intro h
      rw [h] at ih
      simp at ih
    rw [chain, root, List.getLast?_cons_of_ne_nil hne, ih]
  | _ => rfl

theorem message_malformedBy (subject value : Text) (cause : Error) :
    (malformedBy subject value cause).message =
      "bad ".toList ++ subject ++ ' ' :: Text.quote value ++ ": ".toList ++ cause.message := rfl

/-- A message begins with the subject and the quoted value. -/
theorem quote_isPrefix_message (subject value : Text) (cause : Error) :
    "bad ".toList ++ subject ++ ' ' :: Text.quote value <+:
      (malformedBy subject value cause).message := by
  rw [message_malformedBy]
  exact (List.prefix_append _ _).trans (List.prefix_append _ _)

/-- **The message is the headlines of the chain**, with colons between them. -/
theorem message_eq_join (e : Error) :
    e.message = Text.join ": ".toList (e.chain.map headline) := by
  induction e with
  | malformedBy subject value cause ih =>
    obtain ⟨first, others, hcause⟩ : ∃ first others, cause.chain.map headline = first :: others :=
      ⟨_, _, by rw [chain_eq_cons, List.map_cons]⟩
    rw [message_malformedBy, ih, chain, List.map_cons, hcause, Text.join_cons_cons]
    rfl
  | _ => exact (Text.join_singleton _ _).symm

/-! ### Classes -/

namespace Class

/-- The class that a class extends. -/
inductive Extends : Class → Class → Prop
  | validation : Extends validation any
  | emptyLabel : Extends emptyLabel validation
  | notReversed : Extends notReversed validation
  | address : Extends address any
  | rune : Extends rune any
  | length : Extends length any

/-- A class lies below itself, below the class that it extends, and so on. -/
abbrev IsBelow : Class → Class → Prop := Relation.ReflTransGen Extends

variable {b c d : Class}

theorem isBelow_any : ∀ c : Class, c.IsBelow any
  | any => .refl
  | validation => .single .validation
  | emptyLabel => .tail (.single .emptyLabel) .validation
  | notReversed => .tail (.single .notReversed) .validation
  | address => .single .address
  | rune => .single .rune
  | length => .single .length

/-- What belongs to a class belongs to the one that it extends. -/
theorem Extends.includes (h : Extends c b) (hd : c.includes d = true) : b.includes d = true := by
  revert hd
  cases h <;> cases d <;> decide

/-- **A class includes the classes below it** and no others. -/
theorem includes_iff : c.includes d = true ↔ d.IsBelow c := by
  constructor
  · intro h
    simp only [Class.includes, Bool.or_eq_true, Bool.and_eq_true, beq_iff_eq] at h
    rcases h with (rfl | rfl) | ⟨rfl, rfl | rfl⟩
    · exact .refl
    · exact isBelow_any d
    · exact .single .emptyLabel
    · exact .single .notReversed
  · intro h
    induction h with
    | refl => simp [Class.includes]
    | tail _ hstep ih => exact hstep.includes ih

end Class

theorem isA_iff {c : Class} : isA c e = true ↔ e.class_.IsBelow c := Class.includes_iff

/-! ### Looking for a class -/

variable {c d : Class}

/-- Looking down the causes is looking along the chain. -/
theorem find?_eq_find?_chain (c : Class) (e : Error) : find? c e = e.chain.find? (isA c) := by
  induction e with
  | malformedBy subject value cause ih =>
    rw [find?, chain, List.find?_cons, ih]
    cases isA c (malformedBy subject value cause) <;> rfl
  | _ => simp only [find?, chain, List.find?_singleton]

/-- **The first error of a class** has none of the class before it in the chain. -/
theorem find?_eq_some_iff : find? c e = some x ↔ ∃ before after, e.chain = before ++ x :: after ∧
    x.class_.IsBelow c ∧ ∀ y ∈ before, ¬ y.class_.IsBelow c := by
  simp only [find?_eq_find?_chain, List.find?_eq_some_iff_append, isA_iff, Bool.not_eq_true',
    ← Bool.not_eq_true]
  constructor
  · rintro ⟨hx, before, after, hchain, hbefore⟩
    exact ⟨before, after, hchain, hx, hbefore⟩
  · rintro ⟨before, after, hchain, hx, hbefore⟩
    exact ⟨hx, before, after, hchain, hbefore⟩

theorem find?_eq_none_iff : find? c e = none ↔ ∀ x ∈ e.chain, ¬ x.class_.IsBelow c := by
  rw [find?_eq_find?_chain, List.find?_eq_none]
  simp only [isA_iff]

theorem has_iff : Failure.has c (.error e) = true ↔ ∃ x ∈ e.chain, x.class_.IsBelow c := by
  unfold Failure.has
  rw [Option.isSome_iff_ne_none, Ne, find?_eq_none_iff]
  push Not
  rfl

/-- An error in the chain is also one of every class above its own. -/
theorem has_of_isBelow (hbelow : d.IsBelow c) (h : Failure.has d (.error e) = true) :
    Failure.has c (.error e) = true := by
  obtain ⟨x, hx, hd⟩ := has_iff.mp h
  exact has_iff.mpr ⟨x, hx, hd.trans hbelow⟩

/-! ### Errors of any depth -/

/-- **Errors are known from their chains and survive copying**, from whatever they are
built and however deep their causes lie: the chain is the error and the chain of its
cause; the message is the headlines of the chain, so that of an address error names the
quoted value and goes on with the message of the cause; the root is the last of the chain;
looking for a class finds the first error at or below it, and so nothing is lost by
looking for a class above; and what is restored from the saved layers is the error. -/
theorem chain_compositional (r : Recipe) :
    r.error.chain = r.error :: r.error.cause?.elim [] chain ∧
    (∀ subject value, (Recipe.malformed subject value).error.message =
      "bad ".toList ++ subject ++ ' ' :: Text.quote value) ∧
    (∀ subject value, (Recipe.malformedBy subject value r).error.message =
      "bad ".toList ++ subject ++ ' ' :: Text.quote value ++ ": ".toList ++ r.error.message) ∧
    r.error.message = Text.join ": ".toList (r.error.chain.map headline) ∧
    r.error.chain.getLast? = some r.error.root ∧
    (∀ c x, find? c r.error = some x ↔ ∃ before after, r.error.chain = before ++ x :: after ∧
      x.class_.IsBelow c ∧ ∀ y ∈ before, ¬ y.class_.IsBelow c) ∧
    (∀ c, find? c r.error = none ↔ ∀ x ∈ r.error.chain, ¬ x.class_.IsBelow c) ∧
    (∀ c d, d.IsBelow c → Failure.has d (.error r.error) = true →
      Failure.has c (.error r.error) = true) ∧
    restore? r.save = some r.error :=
  ⟨chain_eq_cons r.error, fun _ _ => rfl, fun subject value => message_malformedBy subject value _,
    message_eq_join r.error, getLast?_chain r.error, fun _ _ => find?_eq_some_iff,
    fun _ => find?_eq_none_iff, fun _ _ => has_of_isBelow, restore?_save r⟩

/-- An empty label below a label below a name, its check built without a message. -/
theorem chain_compositional_empty_label :
    let check : Recipe := .check .emptyLabel none
    let label : Recipe := .malformedBy Subject.label [] check
    let r : Recipe := .malformedBy Subject.reverseName "..in-addr.arpa".toList label
    r.error.chain = [r.error, label.error, check.error] ∧
      r.error.message = ("bad arpa domain name \"..in-addr.arpa\": " ++
        "bad domain name label \"\": label is empty").toList ∧
      find? .validation r.error = some check.error ∧ find? .rune r.error = none ∧
      Class.emptyLabel.IsBelow .validation ∧ Failure.has .emptyLabel (.error r.error) = true ∧
      Failure.has .validation (.error r.error) = true ∧
      restore? r.save = some r.error ∧ restore? label.save = some label.error := by
  intro check label r
  obtain ⟨hchain, -, -, hmessage, -, hfind, hnone, hbelow, hrestore⟩ := chain_compositional r
  obtain ⟨hlabel, -, -, -, -, -, -, -, hrestore'⟩ := chain_compositional label
  have hcauses : r.error.chain = [r.error, label.error, check.error] :=
    hchain.trans (congrArg (r.error :: ·) hlabel)
  have hvalidation : Class.emptyLabel.IsBelow .validation := .single .emptyLabel
  have hempty : Failure.has .emptyLabel (.error r.error) = true := by decide
  refine ⟨hcauses, ?_, ?_, ?_, hvalidation, hempty, hbelow _ _ hvalidation hempty, hrestore, hrestore'⟩
  · rw [hmessage, hcauses]
    decide +kernel
  · refine (hfind _ _).mpr ⟨[r.error, label.error], [], hcauses, hvalidation, ?_⟩
    simp only [← Class.includes_iff]
    decide
  · rw [hnone, hcauses]
    simp only [← Class.includes_iff]
    decide

end Error
end ReverseDns
