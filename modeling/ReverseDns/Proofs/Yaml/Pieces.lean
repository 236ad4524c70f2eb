/-
# Folded and escaped strings are read piece by piece

A folded string consists of characters, of single line ends with an indentation, each
for a space, and of several line ends with an indentation, for all of them but one. An
escaped string consists of characters, of escapes, and of broken line ends, for
nothing. A reader that knows the indentation takes each piece off whatever follows, so
strings are told apart wherever their lines were broken.

Key definitions: `Yaml.readFolded`, `Yaml.readEscaped`.
Key theorems: `Yaml.spells_folded`, `Yaml.readEscaped_escape`, `Yaml.spells_escaped`.
-/
import ReverseDns.Proofs.Text.Pieces
import ReverseDns.Proofs.Text.Printed
import ReverseDns.Yaml.Fold
import Mathlib.Data.List.TakeWhile

namespace ReverseDns
namespace Yaml

open Text (Spells)

variable {apostrophe t rest : Text} {indent column : Nat} {previous : Option Char} {c : Char}

theorem isPrefix_spaces_append (n : Nat) (rest : Text) : spaces n <+: spaces n ++ rest :=
  List.prefix_append _ _

theorem drop_spaces_append (n : Nat) (rest : Text) : (spaces n ++ rest).drop n = rest :=
  List.drop_left' List.length_replicate

theorem spaces_succ (n : Nat) : spaces (n + 1) = ' ' :: spaces n := List.replicate_succ

/-! ### Folded strings -/

/-- Takes one piece off a folded text whose lines are indented by `indent`. -/
def readFolded (apostrophe : Text) (indent : Nat) : Text → Option (Text × Text)
  | [] => none
  | '\n' :: rest =>
    let breaks := rest.takeWhile (· == '\n')
    let line := rest.dropWhile (· == '\n')
    if spaces indent <+: line then some (if breaks = [] then [' '] else breaks, line.drop indent)
    else none
  | '\'' :: rest =>
    if apostrophe <+: '\'' :: rest then some (['\''], ('\'' :: rest).drop apostrophe.length)
    else none
  | c :: rest => some ([c], rest)

/-- A character is read as itself. -/
theorem readFolded_cons (hline : c ≠ '\n') (hquote : c ≠ '\'') (rest : Text) :
    readFolded apostrophe indent (c :: rest) = some ([c], rest) := by
  unfold readFolded
  split
  · rename_i h
    simp at h
  · rename_i h
    exact absurd (List.cons.inj h).1 hline
  · rename_i h
    exact absurd (List.cons.inj h).1 hquote
  · rename_i h
    obtain ⟨rfl, rfl⟩ := List.cons.inj h
    rfl

/-- An apostrophe is read in the way it is written. -/
theorem readFolded_apostrophe (h : ∃ a, apostrophe = '\'' :: a) (rest : Text) :
    readFolded apostrophe indent (apostrophe ++ rest) = some (['\''], rest) := by
  obtain ⟨a, rfl⟩ := h
  have hprefix : '\'' :: a <+: '\'' :: (a ++ rest) := List.prefix_append ('\'' :: a) rest
  rw [List.cons_append, readFolded, if_pos hprefix]
  simp

/-- `k + 1` line ends and the indentation are read as a space, or as `k` line ends. -/
theorem readFolded_breaks (hindent : 0 < indent) (k : Nat) (rest : Text) :
    readFolded apostrophe indent (List.replicate (k + 1) '\n' ++ spaces indent ++ rest) =
      some (if k = 0 then [' '] else List.replicate k '\n', rest) := by
  obtain ⟨n, rfl⟩ : ∃ n, indent = n + 1 := ⟨indent - 1, by omega⟩
  have htake : (List.replicate k '\n' ++ (spaces (n + 1) ++ rest)).takeWhile (· == '\n') =
      List.replicate k '\n' := by
    rw [List.takeWhile_append_of_pos (by simp), spaces_succ, List.cons_append,
      List.takeWhile_cons_of_neg (by decide), List.append_nil]
  have hdrop : (List.replicate k '\n' ++ (spaces (n + 1) ++ rest)).dropWhile (· == '\n') =
      spaces (n + 1) ++ rest := by
    rw [List.dropWhile_append_of_pos (by simp), spaces_succ, List.cons_append,
      List.dropWhile_cons_of_neg (by decide)]
  rw [List.append_assoc, List.replicate_succ, List.cons_append, readFolded]
  simp only [htake, hdrop, if_pos (isPrefix_spaces_append _ _), drop_spaces_append,
    List.replicate_eq_nil_iff]

/-- What line ends are read as begins with a space or a line end. -/
theorem of_readFolded_line {part x : Text}
    (h : readFolded apostrophe indent ('\n' :: x) = some (part, rest)) :
    part = [' '] ∨ ∃ u, part = '\n' :: u := by
  rw [readFolded] at h
  split at h
  · rw [Option.some.injEq, Prod.mk.injEq] at h
    rw [← h.1]
    cases hbreaks : x.takeWhile (· == '\n') with
    | nil => exact .inl (if_pos rfl)
    | cons d u =>
      have hmem : d ∈ x.takeWhile (· == '\n') := by
        rw [hbreaks]
        exact List.mem_cons_self
      have hd := List.mem_takeWhile_imp hmem
      rw [beq_iff_eq] at hd
      rw [hd]
      exact .inr ⟨u, if_neg (List.cons_ne_nil _ _)⟩
  · exact absurd h (by simp)

theorem folded_line (rest : Text) : folded apostrophe indent column previous ('\n' :: rest) =
    (if previous = some '\n' then ['\n'] else ['\n', '\n']) ++
      if rest.head? = some '\n' then folded apostrophe indent column (some '\n') rest
      else spaces indent ++ folded apostrophe indent indent (some '\n') rest := by
  rw [folded, if_neg (by decide), if_pos rfl]

/-- A folded text is read piece by piece. Within a run of line ends it goes on with the
rest of the run, the indentation, and then the pieces of what follows the run. -/
theorem spells_folded_aux (happ : ∃ a, apostrophe = '\'' :: a) (hindent : 0 < indent) (t : Text) :
    ∀ (column : Nat) (previous : Option Char),
      (previous = some '\n' → t.head? = some '\n' → ∃ k w s,
        Spells (readFolded apostrophe indent) w s ∧
        folded apostrophe indent column previous t =
          List.replicate (k + 1) '\n' ++ spaces indent ++ w ∧
        t = List.replicate (k + 1) '\n' ++ s) ∧
      ((previous = some '\n' → t.head? ≠ some '\n') →
        Spells (readFolded apostrophe indent) (folded apostrophe indent column previous t) t) := by
  induction t with
  | nil => exact fun _ _ => ⟨fun _ h => absurd h (by simp), fun _ => .nil⟩
  | cons c rest ih =>
    intro column previous
    by_cases hline : c = '\n'
    · subst hline
      have hrun : ∃ k w s, Spells (readFolded apostrophe indent) w s ∧
          (if rest.head? = some '\n' then folded apostrophe indent column (some '\n') rest
            else spaces indent ++ folded apostrophe indent indent (some '\n') rest) =
            List.replicate k '\n' ++ spaces indent ++ w ∧ rest = List.replicate k '\n' ++ s := by
        by_cases hhead : rest.head? = some '\n'
        · obtain ⟨k, w, s, hws, hw, hs⟩ := (ih column (some '\n')).1 rfl hhead
          exact ⟨k + 1, w, s, hws, by rw [if_pos hhead, hw], hs⟩
        · have hws := (ih indent (some '\n')).2 fun _ => hhead
          exact ⟨0, _, rest, hws, by rw [if_neg hhead]; rfl, rfl⟩
      obtain ⟨k, w, s, hws, hw, hs⟩ := hrun
      rw [folded_line, hw]
      refine ⟨fun hprevious _ => ⟨k, w, s, hws, ?_, ?_⟩, fun hprevious => ?_⟩
      · rw [if_pos hprevious]
        rfl
      · rw [hs]
        rfl
      · -- A run begins with one line end more than it stands for.
        have hfirst : previous ≠ some '\n' := fun h => hprevious h rfl
        rw [if_neg hfirst, hs]
        exact Spells.cons (readFolded_breaks hindent (k + 1)) hws
    · refine ⟨fun _ h => absurd (Option.some.inj h) hline, fun _ => ?_⟩
      have hrest : ∀ column, Spells (readFolded apostrophe indent)
          (folded apostrophe indent column (some c) rest) rest :=
        fun column => (ih column (some c)).2 fun h => absurd (Option.some.inj h) hline
      rw [folded]
      by_cases hspace : c = ' '
      · subst hspace
        rw [if_pos rfl]
        split
        · exact Spells.cons (readFolded_breaks hindent 0) (hrest indent)
        · exact Spells.cons_char (readFolded_cons (by decide) (by decide)) (hrest (column + 1))
      · rw [if_neg hspace, if_neg hline]
        by_cases hquote : c = '\''
        · subst hquote
          rw [if_pos rfl]
          exact Spells.cons (readFolded_apostrophe happ) (hrest _)
        · rw [if_neg hquote]
          exact Spells.cons_char (readFolded_cons hline hquote) (hrest (column + 1))

/-- **A folded text is read piece by piece.** -/
theorem spells_folded (happ : ∃ a, apostrophe = '\'' :: a) (hindent : 0 < indent) (column : Nat)
    (t : Text) : Spells (readFolded apostrophe indent) (folded apostrophe indent column none t) t :=
  (spells_folded_aux happ hindent t column none).2 fun h => by simp at h

/-! ### Escaped strings -/

/-- The character that an escape of one letter stands for. -/
def unescape? : Char → Option Char
  | '"' => some '"'
  | '\\' => some '\\'
  | '0' => some '\x00'
  | 'a' => some '\x07'
  | 'b' => some '\x08'
  | 't' => some '\t'
  | 'n' => some '\n'
  | 'v' => some '\x0b'
  | 'f' => some '\x0c'
  | 'r' => some '\r'
  | 'e' => some '\x1b'
  | 'N' => some '\u0085'
  | '_' => some '\u00a0'
  | 'L' => some '\u2028'
  | 'P' => some '\u2029'
  | _ => none

/-- Takes a character off that is written by its code in a field of fixed width. -/
def readCode (width : Nat) (t : Text) : Option (Text × Text) :=
  (Text.hexNumber? (t.take width)).map fun n => ([Char.ofNat n], t.drop width)

/-- Takes what follows a backslash off an escaped text whose lines are indented by
`indent`. -/
def readEscape (indent : Nat) : Text → Option (Text × Text)
  | [] => none
  | '\n' :: rest => if spaces indent <+: rest then some ([], rest.drop indent) else none
  | ' ' :: rest => some ([' '], rest)
  | 'x' :: rest => readCode 2 rest
  | 'u' :: rest => readCode 4 rest
  | 'U' :: rest => readCode 8 rest
  | c :: rest => (unescape? c).map fun d => ([d], rest)

/-- Takes one piece off an escaped text. -/
def readEscaped (indent : Nat) : Text → Option (Text × Text)
  | [] => none
  | '"' :: _ => none
  | '\\' :: rest => readEscape indent rest
  | c :: rest => some ([c], rest)

/-- A character is read as itself. -/
theorem readEscaped_cons (hquote : c ≠ '"') (hescape : c ≠ '\\') (rest : Text) :
    readEscaped indent (c :: rest) = some ([c], rest) := by
  unfold readEscaped
  split
  · rename_i h
    simp at h
  · rename_i h
    exact absurd (List.cons.inj h).1 hquote
  · rename_i h
    exact absurd (List.cons.inj h).1 hescape
  · rename_i h
    obtain ⟨rfl, rfl⟩ := List.cons.inj h
    rfl

/-- A broken line is read as nothing. -/
theorem readEscaped_broken (rest : Text) :
    readEscaped indent ('\\' :: '\n' :: spaces indent ++ rest) = some ([], rest) := by
  rw [List.cons_append, List.cons_append, readEscaped, readEscape,
    if_pos (isPrefix_spaces_append indent rest), drop_spaces_append]

theorem readCode_upperHex (width : Nat) (h : c.toNat < 16 ^ width) (rest : Text) :
    readCode width (upperHex width c.toNat ++ rest) = some ([c], rest) := by
  have hlength : (upperHex width c.toNat).length = width := by
    rw [upperHex, List.length_map, Text.length_padded]
  have hnumber : Text.hexNumber? (upperHex width c.toNat) = some c.toNat := by
    rw [upperHex, Text.hexNumber?_padded Text.hexDigit?_toUpper_digitChar, Nat.mod_eq_of_lt h]
  rw [readCode, List.take_left' hlength, List.drop_left' hlength, hnumber, Option.map_some,
    Char.ofNat_toNat]

theorem readEscape_letter {d : Char} (h : unescape? d = some c) (rest : Text) :
    readEscape indent (d :: rest) = some ([c], rest) := by
  unfold readEscape
  split <;> rename_i hd
  · simp at hd
  all_goals obtain ⟨rfl, rfl⟩ := List.cons.inj hd
  case h_7 => rw [h, Option.map_some]
  all_goals simp [unescape?] at h

theorem isAsciiPrintable_iff : isAsciiPrintable c = true ↔ Text.IsVisible c := by
  simp [isAsciiPrintable, Text.IsVisible]

/-- A character is written as itself, by a letter, or by its code in a field. -/
theorem escape?_cases (c : Char) :
    (escape? c = none ∧ Text.IsVisible c ∧ c ≠ '"' ∧ c ≠ '\\') ∨
      (∃ d, unescape? d = some c ∧ escape? c = some ['\\', d]) ∨
      (c.toNat < 16 ^ 2 ∧ escape? c = some ('\\' :: 'x' :: upperHex 2 c.toNat)) ∨
      (c.toNat < 16 ^ 4 ∧ escape? c = some ('\\' :: 'u' :: upperHex 4 c.toNat)) ∨
      (c.toNat < 16 ^ 8 ∧ escape? c = some ('\\' :: 'U' :: upperHex 8 c.toNat)) := by
  have hvalid : c.toNat < 0x110000 := by
    have h : c.toNat.isValidChar := c.valid
    unfold Nat.isValidChar at h
    omega
  by_cases hself : c = '"' ∨ c = '\\'
  · refine .inr (.inl ⟨c, ?_, if_pos hself⟩)
    rcases hself with rfl | rfl <;> rfl
  by_cases hvisible : isAsciiPrintable c = true
  · refine .inl ⟨?_, isAsciiPrintable_iff.mp hvisible, not_or.mp hself⟩
    unfold escape?
    rw [if_neg hself, if_pos hvisible]
  unfold escape?
  rw [if_neg hself, if_neg hvisible]
  refine .inr ?_
  split
  · exact .inl ⟨'0', rfl, rfl⟩
  · exact .inl ⟨'a', rfl, rfl⟩
  · exact .inl ⟨'b', rfl, rfl⟩
  · exact .inl ⟨'t', rfl, rfl⟩
  · exact .inl ⟨'n', rfl, rfl⟩
  · exact .inl ⟨'v', rfl, rfl⟩
  · exact .inl ⟨'f', rfl, rfl⟩
  · exact .inl ⟨'r', rfl, rfl⟩
  · exact .inl ⟨'e', rfl, rfl⟩
  · exact .inl ⟨'N', rfl, rfl⟩
  · exact .inl ⟨'_', rfl, rfl⟩
  · exact .inl ⟨'L', rfl, rfl⟩
  · exact .inl ⟨'P', rfl, rfl⟩
  · by_cases htwo : c.toNat ≤ 0xff
    · exact .inr (.inl ⟨by omega, by rw [if_pos htwo]⟩)
    · by_cases hfour : c.toNat ≤ 0xffff
      · exact .inr (.inr (.inl ⟨by omega, by rw [if_neg htwo, if_pos hfour]⟩))
      · exact .inr (.inr (.inr ⟨by omega, by rw [if_neg htwo, if_neg hfour]⟩))

theorem of_escape?_eq_none (h : escape? c = none) : Text.IsVisible c ∧ c ≠ '"' ∧ c ≠ '\\' := by
  rcases escape?_cases c with ⟨-, hself⟩ | ⟨d, -, he⟩ | ⟨-, he⟩ | ⟨-, he⟩ | ⟨-, he⟩
  · exact hself
  all_goals exact absurd (he.symm.trans h) (by simp)

/-- **An escape is read as its character.** -/
theorem readEscaped_escape {e : Text} (h : escape? c = some e) (rest : Text) :
    readEscaped indent (e ++ rest) = some ([c], rest) := by
  rcases escape?_cases c with ⟨he, -⟩ | ⟨d, hd, he⟩ | ⟨hc, he⟩ | ⟨hc, he⟩ | ⟨hc, he⟩
  · rw [he] at h
    exact absurd h (by simp)
  · rw [he, Option.some.injEq] at h
    rw [← h]
    exact readEscape_letter hd rest
  all_goals
    rw [he, Option.some.injEq] at h
    rw [← h]
    exact readCode_upperHex _ hc rest

theorem escaped_space {first afterEscape : Bool} (hcolumn : column ≤ width) (t : Text) :
    escaped indent column first afterEscape (' ' :: t) =
      ' ' :: escaped indent (column + 1) false false t := by
  have hescape : escape? ' ' = none := by decide
  rw [escaped, hescape]
  exact if_neg fun h => by omega

theorem spells_broken {next : Option Char} {w : Text} (hnext : next ≠ some ' ')
    (h : Spells (readEscaped indent) w t) :
    Spells (readEscaped indent) (broken indent next ++ w) t := by
  rw [broken, if_neg hnext, List.append_nil]
  exact Spells.cons readEscaped_broken h

/-- A space that comes first on a line is read after the backslash in front of it. -/
theorem spells_broken_space {w : Text} (h : Spells (readEscaped indent) w t) :
    Spells (readEscaped indent) (broken indent (some ' ') ++ ' ' :: w) (' ' :: t) := by
  have hblank : ∀ rest, readEscaped indent (['\\', ' '] ++ rest) = some ([' '], rest) :=
    fun _ => rfl
  have hspells := Spells.cons readEscaped_broken (Spells.cons hblank h)
  have hlast : broken indent (some ' ') ++ ' ' :: w =
      '\\' :: '\n' :: spaces indent ++ (['\\', ' '] ++ w) := by
    simp [broken]
  rw [hlast]
  exact hspells

/-- **An escaped text is read piece by piece**, if its lines are indented by less than the
column past which they are broken. -/
theorem spells_escaped (hindent : indent < width) : ∀ (t : Text) (column : Nat)
    (first afterEscape : Bool),
    Spells (readEscaped indent) (escaped indent column first afterEscape t) t
  | [], _, _, _ => .nil
  | c :: rest, column, first, afterEscape => by
    have ih := spells_escaped hindent rest
    rw [escaped]
    cases hescape : escape? c with
    | none =>
      obtain ⟨-, hquote, hbackslash⟩ := of_escape?_eq_none hescape
      have hcons := fun column => Spells.cons_char (readEscaped_cons hquote hbackslash)
        (ih column false false)
      simp only
      split
      · by_cases hspace : c = ' '
        · subst hspace
          exact spells_broken_space (ih _ false false)
        · exact spells_broken (fun h => hspace (Option.some.inj h)) (hcons _)
      · exact hcons (column + 1)
    | some e =>
      have hread : ∀ rest, readEscaped indent (e ++ rest) = some ([c], rest) :=
        readEscaped_escape hescape
      simp only
      split
      · refine Spells.cons hread ?_
        match rest with
        | [] => exact spells_broken (by simp) .nil
        | d :: rest =>
          by_cases hspace : d = ' '
          · -- the line is not broken again before the space
            subst hspace
            have hcolumn : brokenColumn indent (some ' ') ≤ width := hindent
            rw [List.head?_cons, escaped_space hcolumn]
            exact spells_broken_space (spells_escaped hindent rest _ false false)
          · exact spells_broken (fun h => hspace (Option.some.inj h)) (ih _ false true)
      · exact Spells.cons hread (ih _ false true)

end Yaml
end ReverseDns
