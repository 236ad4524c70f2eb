/-
# Quoted texts are told apart

A reader takes one character off an escaped text, written as itself or by an escape, and
stops at the closing quote. So a quoted text is told apart from whatever follows it
(`Text.quote_append_inj`). Between single quotes the escape of a double quote loses its
backslash. No other backslash stands in front of a double quote, because no escaped text
begins with one (`Text.bareQuotes_flatMap_escape`); so the same reader takes those
characters off too, and no two texts look alike between single quotes
(`Text.quoteRune_injective`). Either kind of quotes leaves the characters from the end of
ASCII on as they are and writes the others as visible ones (`Text.mem_quote_iff`).

Key definitions: `Text.readEscaped`, `Text.escapeBare`.
Key theorems: `Text.readEscaped_escape`, `Text.quote_append_inj`,
`Text.bareQuotes_flatMap_escape`, `Text.quoteRune_injective`, `Text.mem_quote_iff`.
-/
import ReverseDns.Proofs.Json.Quoted
import ReverseDns.Proofs.Text.Pieces

namespace ReverseDns
namespace Text

variable {s t rest : Text} {c d : Char} {close : Option Char}

/-! ### Reading one character -/

/-- Takes one character off an escaped text, which ends before the character `close` if
there is one. -/
def readEscaped (close : Option Char) : Text → Option (Text × Text)
  | [] => none
  | '\\' :: 'u' :: ds => (hexNumber? (ds.take 4)).map fun n => ([Char.ofNat n], ds.drop 4)
  | '\\' :: d :: rest => (Json.unescape? d).map fun c => ([c], rest)
  | c :: rest => if close = some c then none else some ([c], rest)

/-- A character is read as itself. -/
theorem readEscaped_cons (hclose : close ≠ some c) (hescape : c ≠ '\\') (rest : Text) :
    readEscaped close (c :: rest) = some ([c], rest) := by
  unfold readEscaped
  split <;> rename_i h
  · simp at h
  · exact absurd (List.cons.inj h).1 hescape
  · exact absurd (List.cons.inj h).1 hescape
  · obtain ⟨rfl, rfl⟩ := List.cons.inj h
    exact if_neg hclose

theorem readEscaped_letter (hu : d ≠ 'u') (hd : Json.unescape? d = some c) (rest : Text) :
    readEscaped close ('\\' :: d :: rest) = some ([c], rest) := by
  rw [readEscaped.eq_3 _ _ _ hu, hd, Option.map_some]

theorem readEscaped_escapeUnit (h : c.toNat < 0x10000) (rest : Text) :
    readEscaped close (Json.escapeUnit c.toNat ++ rest) = some ([c], rest) := by
  have hlength := length_padded 16 4 c.toNat
  have hnumber : hexNumber? (padded 16 4 c.toNat) = some c.toNat := Json.hexNumber?_escapeUnit h
  rw [Json.escapeUnit, List.cons_append, List.cons_append, readEscaped, List.take_left' hlength,
    List.drop_left' hlength, hnumber, Option.map_some, Char.ofNat_toNat]

/-- **Each character is read back from how it is written**, also where the text goes on
to the end. -/
theorem readEscaped_escape (hclose : ∀ q ∈ close, q = '"') (c : Char) (rest : Text) :
    readEscaped close (escape c ++ rest) = some ([c], rest) := by
  rcases Json.escape_cases c with ⟨d, hu, hd, he⟩ | ⟨hlow, he⟩ | ⟨hquote, hescape, -, he⟩
  · rw [he]
    exact readEscaped_letter hu hd rest
  · have hlt : c.toNat < 32 := hlow
    rw [he]
    exact readEscaped_escapeUnit (by omega) rest
  · rw [he]
    exact readEscaped_cons (fun h => hquote (hclose c h)) hescape rest

theorem spells_escape (hclose : ∀ q ∈ close, q = '"') (t : Text) :
    Spells (readEscaped close) (t.flatMap escape) t :=
  .flatMap (readEscaped_escape hclose) t

/-- **A quoted text is told apart from what follows it.** -/
theorem quote_append_inj {a b : Text} : quote a ++ s = quote b ++ t ↔ a = b ∧ s = t := by
  refine ⟨fun h => ?_, fun ⟨hab, hst⟩ => by rw [hab, hst]⟩
  have hstop : ∀ x : Text, readEscaped (some '"') ('"' :: x) = none := fun _ => rfl
  have hspells : ∀ x, Spells (readEscaped (some '"')) (x.flatMap escape) x :=
    spells_escape fun q hq => (Option.some.inj hq).symm
  unfold quote at h
  simp only [List.cons_append, List.append_assoc, List.nil_append, List.cons.injEq, true_and] at h
  obtain ⟨hab, hrest⟩ := (hspells a).unique (hspells b) (hstop s) (hstop t) h
  exact ⟨hab, (List.cons.inj hrest).2⟩

/-! ### Between single quotes -/

/-- How one character is written between single quotes. -/
def escapeBare (c : Char) : Text := if c = '"' then ['"'] else escape c

theorem readEscaped_escapeBare (c : Char) (rest : Text) :
    readEscaped none (escapeBare c ++ rest) = some ([c], rest) := by
  unfold escapeBare
  split
  · rename_i hc
    rw [hc]
    rfl
  · exact readEscaped_escape (fun q hq => by simp at hq) c rest

/-- A character keeps its place, unless it is a backslash in front of a quote. -/
theorem bareQuotes_cons (h : c = '\\' → t.head? ≠ some '"') :
    bareQuotes (c :: t) = c :: bareQuotes t := by
  rw [bareQuotes.eq_2]
  intro cs hc ht
  exact h hc (by rw [ht]; rfl)

theorem bareQuotes_append : ∀ {s : Text}, '\\' ∉ s → bareQuotes (s ++ t) = s ++ bareQuotes t
  | [], _ => rfl
  | c :: s, h => by
    have hc : c = '\\' → (s ++ t).head? ≠ some '"' :=
      fun hc => absurd hc.symm (List.ne_of_not_mem_cons h)
    rw [List.cons_append, bareQuotes_cons hc, bareQuotes_append (List.not_mem_of_not_mem_cons h)]
    rfl

/-- No escaped character begins with a quote. -/
theorem head?_escape_append (c : Char) (t : Text) : (escape c ++ t).head? ≠ some '"' := by
  rcases Json.escape_cases c with ⟨d, -, -, he⟩ | ⟨-, he⟩ | ⟨hquote, -, -, he⟩ <;> rw [he]
  · simp
  · simp [Json.escapeUnit]
  · simpa using hquote

theorem head?_flatMap_escape (t : Text) : (t.flatMap escape).head? ≠ some '"' := by
  cases t with
  | nil => simp
  | cons c t => exact head?_escape_append c (t.flatMap escape)

theorem backslash_not_mem_escapeUnit_tail (n : Nat) : '\\' ∉ 'u' :: padded 16 4 n := by
  have hdigit : hexDigit? '\\' = none := by decide
  intro h
  rcases List.mem_cons.mp h with h | h
  · simp at h
  · obtain ⟨d, hd, hc⟩ := mem_padded (by omega) h
    exact ne_digitChar hdigit hd hc

/-- The escape of a quote loses its backslash, any other escape stays as it is. -/
theorem bareQuotes_escape_append (c : Char) (ht : t.head? ≠ some '"') :
    bareQuotes (escape c ++ t) = escapeBare c ++ bareQuotes t := by
  unfold escapeBare
  split
  · rename_i hc
    rw [hc]
    rfl
  rename_i hc
  rcases Json.escape_cases c with ⟨d, -, hd, he⟩ | ⟨-, he⟩ | ⟨-, hescape, -, he⟩ <;> rw [he]
  · have hquote : d ≠ '"' := by
      rintro rfl
      exact hc (Option.some.inj hd).symm
    have hfirst : '\\' = '\\' → (d :: t).head? ≠ some '"' := fun _ h => hquote (Option.some.inj h)
    rw [List.cons_append, List.singleton_append, bareQuotes_cons hfirst, bareQuotes_cons fun _ => ht]
    rfl
  · have hfirst : '\\' = '\\' → ('u' :: padded 16 4 c.toNat ++ t).head? ≠ some '"' :=
      fun _ h => by simp at h
    unfold Json.escapeUnit
    rw [List.cons_append, bareQuotes_cons hfirst,
      bareQuotes_append (backslash_not_mem_escapeUnit_tail c.toNat)]
    rfl
  · rw [List.singleton_append, bareQuotes_cons fun h => absurd h hescape]
    rfl

/-- **Only the escapes of quotes lose a backslash.** -/
theorem bareQuotes_flatMap_escape : ∀ t : Text,
    bareQuotes (t.flatMap escape) = t.flatMap escapeBare
  | [] => rfl
  | c :: t => by
    rw [List.flatMap_cons, bareQuotes_escape_append c (head?_flatMap_escape t),
      bareQuotes_flatMap_escape t]
    rfl

theorem quoteRune_of_ne (h : t ≠ ['\'']) :
    quoteRune t = '\'' :: (t.flatMap escapeBare ++ ['\'']) := by
  rw [quoteRune, if_neg h, bareQuotes_flatMap_escape]

/-- A lone apostrophe is written by an escape that no other character has. -/
theorem flatMap_escapeBare_ne : t.flatMap escapeBare ≠ ['\\', '\''] := by
  cases t with
  | nil => simp
  | cons c t =>
    intro h
    have hread := readEscaped_escapeBare c (t.flatMap escapeBare)
    have hnone : readEscaped none ['\\', '\''] = none := by decide
    rw [← List.flatMap_cons, h, hnone] at hread
    simp at hread

/-- **No two texts look alike between single quotes.** -/
theorem quoteRune_injective : Function.Injective quoteRune := by
  intro a b h
  by_cases ha : a = ['\''] <;> by_cases hb : b = ['\'']
  · rw [ha, hb]
  · rw [ha, quoteRune_of_ne hb] at h
    exact absurd (List.append_cancel_right (List.cons.inj h).2).symm flatMap_escapeBare_ne
  · rw [hb, quoteRune_of_ne ha] at h
    exact absurd (List.append_cancel_right (List.cons.inj h).2) flatMap_escapeBare_ne
  · rw [quoteRune_of_ne ha, quoteRune_of_ne hb] at h
    have hstop : readEscaped none [] = none := rfl
    have hspells := Spells.flatMap readEscaped_escapeBare
    have hinner : a.flatMap escapeBare ++ [] = b.flatMap escapeBare ++ [] := by
      rw [List.append_cancel_right (List.cons.inj h).2]
    exact ((hspells a).unique (hspells b) hstop hstop hinner).1

/-! ### What stays as it is -/

theorem escape_of_le (h : 0x7f ≤ c.toNat) : escape c = [c] := by
  have hne : ∀ d : Char, d.toNat < 0x7f → c ≠ d := by
    rintro d hd rfl
    omega
  have hlow : ¬ c < ' ' := by
    rw [Char.not_lt]
    show 32 ≤ c.toNat
    omega
  rw [escape, if_neg (hne _ (by decide)), if_neg (hne _ (by decide)), if_neg (hne _ (by decide)),
    if_neg (hne _ (by decide)), if_neg (hne _ (by decide)), if_neg (hne _ (by decide)),
    if_neg (hne _ (by decide)), if_neg hlow]

/-- A character that is not visible is written as itself from the end of ASCII on, and is
not written otherwise. -/
theorem mem_escape_iff (hc : ¬ IsVisible c) : c ∈ escape d ↔ c = d ∧ 0x7f ≤ c.toNat := by
  by_cases hd : d.toNat < 0x7f
  · refine iff_of_false (fun h => hc (Json.isVisible_message hd c h)) ?_
    rintro ⟨rfl, hle⟩
    omega
  · rw [escape_of_le (by omega), List.mem_singleton]
    refine ⟨?_, And.left⟩
    rintro rfl
    exact ⟨rfl, by omega⟩

theorem mem_escapeBare_iff (hc : ¬ IsVisible c) : c ∈ escapeBare d ↔ c = d ∧ 0x7f ≤ c.toNat := by
  unfold escapeBare
  split
  · rename_i hd
    have hvisible : IsVisible '"' := by decide
    rw [List.mem_singleton, hd]
    refine iff_of_false ?_ ?_ <;> rintro h
    · exact hc (h ▸ hvisible)
    · exact hc (h.1 ▸ hvisible)
  · exact mem_escape_iff hc

theorem mem_between_iff {f : Char → Text} {q : Char} (hc : ¬ IsVisible c) (hq : IsVisible q)
    (hf : ∀ d, c ∈ f d ↔ c = d ∧ 0x7f ≤ c.toNat) :
    c ∈ q :: (t.flatMap f ++ [q]) ↔ c ∈ t ∧ 0x7f ≤ c.toNat := by
  have hne : c ≠ q := fun h => hc (h ▸ hq)
  simp only [List.mem_cons, List.mem_append, List.mem_flatMap, List.not_mem_nil, hf, hne, false_or,
    or_false]
  constructor
  · rintro ⟨d, hd, rfl, hle⟩
    exact ⟨hd, hle⟩
  · rintro ⟨ht, hle⟩
    exact ⟨c, ht, rfl, hle⟩

/-- **A quoted text has the characters of the text from the end of ASCII on**, and no
others that are not visible. -/
theorem mem_quote_iff (hc : ¬ IsVisible c) : c ∈ quote t ↔ c ∈ t ∧ 0x7f ≤ c.toNat :=
  mem_between_iff hc (by decide) fun _ => mem_escape_iff hc

theorem mem_quoteRune_iff (hc : ¬ IsVisible c) : c ∈ quoteRune t ↔ c ∈ t ∧ 0x7f ≤ c.toNat := by
  by_cases ht : t = ['\'']
  · have hvisible : ∀ d ∈ quoteRune ['\''], IsVisible d := isVisible_of_all rfl
    have hvisible' : ∀ d ∈ ['\''], IsVisible d := isVisible_of_all rfl
    rw [ht]
    exact iff_of_false (fun h => hc (hvisible c h)) (fun h => hc (hvisible' c h.1))
  · rw [quoteRune_of_ne ht]
    exact mem_between_iff hc (by decide) fun _ => mem_escapeBare_iff hc

end Text
end ReverseDns
