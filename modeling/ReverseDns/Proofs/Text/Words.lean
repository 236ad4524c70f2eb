/-
# Words and separators

Names and addresses are words with a separator between neighbours. Joining
words that do not hold the separator and splitting the text again gives the
words back (`splitOn_join`), and splitting any text and joining gives the text
(`join_splitOn`); so a property of a joined text is a property of its words.

Key theorems: `Text.splitOn_join`, `Text.join_splitOn`, `Text.append_cons_inj`,
`Text.mem_join`, `Text.isInfix_join`, `Text.two_mul_length_splitOn`.
-/
import ReverseDns.Text
import Mathlib.Data.List.Infix

namespace ReverseDns
namespace Text

variable {sep c : Char} {t w : Text} {ws : List Text}

theorem join_cons_cons (sep w v : Text) (ws : List Text) :
    join sep (w :: v :: ws) = w ++ sep ++ join sep (v :: ws) := by
  simp [join]

@[simp] theorem join_nil (sep : Text) : join sep [] = [] := rfl

@[simp] theorem join_singleton (sep w : Text) : join sep [w] = w := by simp [join]

/-- A longer first word makes the joined text longer by as much. -/
theorem join_cons_head (sep : Text) (c : Char) (w : Text) (ws : List Text) :
    join sep ((c :: w) :: ws) = c :: join sep (w :: ws) := by
  cases ws with
  | nil => simp
  | cons v ws => rw [join_cons_cons, join_cons_cons, List.cons_append, List.cons_append]

/-- Splitting joined words gives the words back. -/
theorem splitOn_join (h : ∀ w ∈ ws, sep ∉ w) (hne : ws ≠ []) : (join [sep] ws).splitOn sep = ws :=
  List.splitOn_intercalate sep h hne

/-- Joining the words of a text gives the text back. -/
theorem join_splitOn (sep : Char) (t : Text) : join [sep] (t.splitOn sep) = t :=
  List.intercalate_splitOn sep

/-- Words with separators between them are the same words if the texts are the same. -/
theorem join_inj {ws' : List Text} (h : ∀ w ∈ ws, sep ∉ w) (hne : ws ≠ [])
    (h' : ∀ w ∈ ws', sep ∉ w) (hne' : ws' ≠ []) : join [sep] ws = join [sep] ws' ↔ ws = ws' := by
  refine ⟨fun hj => ?_, fun hj => hj ▸ rfl⟩
  rw [← splitOn_join h hne, hj, splitOn_join h' hne']

/-- A text has one word before its first separator, and one rest behind it. -/
theorem append_cons_inj {s s' : Text} : ∀ {w w' : Text}, sep ∉ w → sep ∉ w' →
    w ++ sep :: s = w' ++ sep :: s' → w = w' ∧ s = s'
  | [], [], _, _, h => ⟨rfl, (List.cons.inj h).2⟩
  | [], d :: _, _, hd, h => absurd (List.cons.inj h).1 (List.ne_of_not_mem_cons hd)
  | c :: _, [], hc, _, h => absurd (List.cons.inj h).1.symm (List.ne_of_not_mem_cons hc)
  | c :: w, d :: w', hc, hd, h => by
    obtain ⟨rfl, hrest⟩ := List.cons.inj h
    obtain ⟨rfl, hs⟩ := append_cons_inj (List.not_mem_of_not_mem_cons hc)
      (List.not_mem_of_not_mem_cons hd) hrest
    exact ⟨rfl, hs⟩

/-- What stands behind as many lines is the same if the texts are. -/
theorem append_lines_inj {s s' : Text} : ∀ {ls ls' : List Text}, (∀ l ∈ ls, sep ∉ l) →
    (∀ l ∈ ls', sep ∉ l) → ls.length = ls'.length →
    ls.flatMap (· ++ [sep]) ++ s = ls'.flatMap (· ++ [sep]) ++ s' → s = s'
  | [], [], _, _, _, h => h
  | [], _ :: _, _, _, hlength, _ => by simp at hlength
  | _ :: _, [], _, _, hlength, _ => by simp at hlength
  | l :: ls, l' :: ls', hls, hls', hlength, h => by
    obtain ⟨hl, hothers⟩ := List.forall_mem_cons.mp hls
    obtain ⟨hl', hothers'⟩ := List.forall_mem_cons.mp hls'
    simp only [List.flatMap_cons, List.append_assoc, List.singleton_append] at h
    exact append_lines_inj hothers hothers' (Nat.succ.inj hlength) (append_cons_inj hl hl' h).2

theorem splitOn_append_cons (sep : Char) (s t : Text) :
    (s ++ sep :: t).splitOn sep = s.splitOn sep ++ t.splitOn sep :=
  List.splitOnP_append_cons s t (beq_self_eq_true sep)

theorem splitOn_cons_of_ne (h : c ≠ sep) (t : Text) :
    (c :: t).splitOn sep = (t.splitOn sep).modifyHead (c :: ·) := by
  have hc : (c == sep) = false := beq_false_of_ne h
  unfold List.splitOn
  rw [List.splitOnP_cons_eq_if_modifyHead, hc]
  rfl

/-- The first word of a text. -/
theorem exists_splitOn (sep : Char) (t : Text) : ∃ w ws, t.splitOn sep = w :: ws :=
  List.exists_cons_of_ne_nil (List.splitOn_ne_nil sep t)

/-- What a text begins with, up to its first separator, its first word begins with. -/
theorem isPrefix_of_splitOn {p : Text} (hp : sep ∉ p) (h : p <+: t)
    (hsplit : t.splitOn sep = w :: ws) : p <+: w := by
  induction p generalizing t w ws with
  | nil => exact List.nil_prefix
  | cons c p ih =>
    obtain ⟨u, rfl⟩ := h
    obtain ⟨v, vs, hv⟩ := exists_splitOn sep (p ++ u)
    rw [List.cons_append, splitOn_cons_of_ne (List.ne_of_not_mem_cons hp).symm, hv] at hsplit
    have hw := (List.cons.inj hsplit).1
    rw [← hw]
    exact List.cons_prefix_cons.mpr
      ⟨rfl, ih (List.not_mem_of_not_mem_cons hp) (List.prefix_append p u) hv⟩

/-- What is not between the words stands in one of them. -/
theorem mem_join_iff {between : Text} (hc : c ∉ between) :
    ∀ {ws : List Text}, c ∈ join between ws ↔ ∃ w ∈ ws, c ∈ w
  | [] => by simp
  | [w] => by simp
  | w :: v :: ws => by
    rw [join_cons_cons, List.mem_append, List.mem_append, mem_join_iff hc,
      List.exists_mem_cons_iff (a := w)]
    simp only [hc, or_false]

/-- A character of joined words is a separator or stands in a word. -/
theorem mem_join {ws : List Text} (h : c ∈ join [sep] ws) : c = sep ∨ ∃ w ∈ ws, c ∈ w := by
  by_cases hc : c = sep
  · exact Or.inl hc
  · exact Or.inr ((mem_join_iff (by simpa using hc)).mp h)

/-- Each word is a part of the joined text. -/
theorem isInfix_join (sep : Text) : ∀ {ws : List Text}, w ∈ ws → w <:+: join sep ws
  | [], h => by simp at h
  | [v], h => by
    have : w = v := by simpa using h
    simp [this]
  | v :: u :: ws, h => by
    rw [join_cons_cons]
    rcases List.mem_cons.mp h with rfl | h
    · rw [List.append_assoc]
      exact (List.prefix_append _ _).isInfix
    · exact (isInfix_join sep h).trans (List.suffix_append _ _).isInfix

theorem isInfix_of_mem_splitOn (h : w ∈ t.splitOn sep) : w <:+: t := by
  have := isInfix_join [sep] h
  rwa [join_splitOn] at this

theorem map_join (f : Char → Char) (sep : Text) : ∀ ws : List Text,
    (join sep ws).map f = join (sep.map f) (ws.map (List.map f))
  | [] => rfl
  | [w] => by simp
  | w :: v :: ws => by
    rw [join_cons_cons, List.map_append, List.map_append, map_join f sep (v :: ws)]
    simp only [List.map_cons, join_cons_cons]

/-! ### Counting words -/

/-- A joined text has the characters of its words and one separator fewer than
there are words. -/
theorem length_join (sep : Char) : ∀ {ws : List Text}, ws ≠ [] →
    (join [sep] ws).length + 1 = ws.flatten.length + ws.length
  | [], h => absurd rfl h
  | [w], _ => by simp
  | w :: v :: ws, _ => by
    have ih := length_join sep (List.cons_ne_nil v ws)
    rw [join_cons_cons, List.flatten_cons, List.length_append, List.length_append,
      List.length_append]
    simp only [List.length_cons, List.length_nil] at ih ⊢
    omega

/-- Joined words of one character each: the characters and the separators
between them. -/
theorem length_join_singletons (sep : Char) (cs : List Char) (hne : cs ≠ []) :
    (join [sep] (cs.map fun c => [c])).length = 2 * cs.length - 1 := by
  have hwords : (cs.map fun c => [c]) ≠ [] := by simpa using hne
  have h := length_join sep hwords
  rw [← List.flatMap_def, List.flatMap_singleton', List.length_map] at h
  omega

/-- Words that are not empty have at least as many characters as there are words,
and as many exactly if each word is a single character. -/
theorem length_le_length_flatten : ∀ {ws : List Text}, (∀ w ∈ ws, w ≠ []) →
    ws.length ≤ ws.flatten.length ∧
      (ws.flatten.length = ws.length ↔ ∀ w ∈ ws, w.length = 1)
  | [], _ => by simp
  | w :: ws, h => by
    obtain ⟨hw, hws⟩ := List.forall_mem_cons.mp h
    obtain ⟨hle, heq⟩ := length_le_length_flatten hws
    have hpos := List.length_pos_of_ne_nil hw
    rw [List.forall_mem_cons, ← heq, List.flatten_cons, List.length_append, List.length_cons]
    omega

/-- **Each word takes a character and a separator**, but for the last, which has no
separator behind it. So a text without empty words has at most half as many words as
characters and one, and just as many if and only if each word is a single
character. -/
theorem two_mul_length_splitOn (h : ∀ w ∈ t.splitOn sep, w ≠ []) :
    2 * (t.splitOn sep).length ≤ t.length + 1 ∧
      (2 * (t.splitOn sep).length = t.length + 1 ↔ ∀ w ∈ t.splitOn sep, w.length = 1) := by
  have hlength := length_join sep (List.splitOn_ne_nil sep t)
  obtain ⟨hle, heq⟩ := length_le_length_flatten h
  rw [join_splitOn] at hlength
  rw [← heq]
  omega

end Text
end ReverseDns
