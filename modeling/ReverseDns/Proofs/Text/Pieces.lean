/-
# Texts that are read piece by piece

A reader takes one piece off the front of a text and says what it stands for. A text
that consists of pieces, each of them read whatever follows it, stands for one text
only: two such texts that begin alike take the same pieces, up to a place where the
reader stops. So different texts are never spelled alike, and what a spelled text
begins with is the beginning of what it stands for.

Key definition: `Text.Spells`.
Key theorems: `Text.Spells.unique`, `Text.Spells.prefix_of_eq`.
-/
import ReverseDns.Text

namespace ReverseDns
namespace Text

/-- `w` consists of pieces that stand for the parts of `t`: `read` takes each of them off
whatever text it begins. -/
inductive Spells (read : Text → Option (Text × Text)) : Text → Text → Prop
  | nil : Spells read [] []
  | cons {piece part w t : Text} (reads : ∀ rest, read (piece ++ rest) = some (part, rest))
    (others : Spells read w t) : Spells read (piece ++ w) (part ++ t)

namespace Spells

variable {read : Text → Option (Text × Text)} {w w' t t' p s stop stop' rest : Text}

theorem append (h : Spells read w t) (h' : Spells read w' t') :
    Spells read (w ++ w') (t ++ t') := by
  induction h with
  | nil => exact h'
  | cons reads _ ih =>
    rw [List.append_assoc, List.append_assoc]
    exact .cons reads ih

theorem cons_char {c : Char} (reads : ∀ rest, read (c :: rest) = some ([c], rest))
    (others : Spells read w t) : Spells read (c :: w) (c :: t) := by
  have hpiece : ∀ rest, read ([c] ++ rest) = some ([c], rest) := reads
  exact .cons hpiece others

/-- A text each character of which stands for itself. -/
theorem of_forall : ∀ {t : Text}, (∀ c ∈ t, ∀ rest, read (c :: rest) = some ([c], rest)) →
    Spells read t t
  | [], _ => .nil
  | c :: _, h =>
    cons_char (h c List.mem_cons_self) (of_forall fun d hd => h d (List.mem_cons_of_mem c hd))

/-- A text each character of which is read from how it is written. -/
theorem flatMap {code : Char → Text}
    (h : ∀ c rest, read (code c ++ rest) = some ([c], rest)) : ∀ t : Text,
    Spells read (t.flatMap code) t
  | [] => .nil
  | c :: t => .cons (h c) (flatMap h t)

/-- **What a text begins with**, up to a place where the reader stops, is the beginning
of what it stands for. -/
theorem prefix_of_eq (hp : Spells read p s) : ∀ {w t : Text}, Spells read w t →
    read stop = none → w ++ stop = p ++ rest →
    ∃ w' t', Spells read w' t' ∧ t = s ++ t' ∧ w' ++ stop = rest := by
  induction hp with
  | nil => exact fun h _ heq => ⟨_, _, h, rfl, heq⟩
  | @cons piece part p s reads _ ih =>
    intro w t h hstop heq
    rw [List.append_assoc] at heq
    have hread := reads (p ++ rest)
    rw [← heq] at hread
    cases h with
    | nil => exact absurd (hread.symm.trans hstop) (by simp)
    | cons reads' others =>
      rw [List.append_assoc, reads', Option.some.injEq, Prod.mk.injEq] at hread
      obtain ⟨rfl, hrest⟩ := hread
      obtain ⟨w', t', h', rfl, heq'⟩ := ih others hstop hrest
      exact ⟨w', t', h', (List.append_assoc ..).symm, heq'⟩

/-- **A text stands for one text only**, up to the place where the reader stops. -/
theorem unique (h : Spells read w t) (h' : Spells read w' t') (hstop : read stop = none)
    (hstop' : read stop' = none) (heq : w ++ stop = w' ++ stop') : t = t' ∧ stop = stop' := by
  obtain ⟨u, v, huv, rfl, hrest⟩ := prefix_of_eq h' h hstop heq
  cases huv with
  | nil => exact ⟨List.append_nil t', hrest⟩
  | @cons piece part u v reads _ =>
    rw [← hrest, List.append_assoc, reads] at hstop'
    exact absurd hstop' (by simp)

end Spells
end Text
end ReverseDns
