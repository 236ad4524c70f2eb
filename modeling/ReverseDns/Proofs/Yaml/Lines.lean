/-
# No string adds a line of its own

Wherever a value is written, the line ends in it, those of folded and escaped strings
included, are followed by a line end or by the indentation of the place: the text is
printed, and all its lines but the first are empty or indented (`Tidy`). So each member
and each item is a block of one line and indented lines, whatever stands in it, and
adds one line that begins in the first column (`TopLines.cons`).

Key definitions: `Yaml.Tidy`, `Yaml.Block`, `Yaml.TopLines`.
Key theorems: `Yaml.tidy_scalar`, `Yaml.valueBlock`, `Yaml.isPrinted_document`,
`Yaml.TopLines.cons`, `Yaml.exists_topLines_items`.
-/
import ReverseDns.Proofs.Text.Words
import ReverseDns.Proofs.Yaml.Block

namespace ReverseDns
namespace Yaml

open Json (Members Value)
open Text (IsPrinted IsVisible)

variable {c : Char} {n k indent column : Nat} {apostrophe s t name : Text} {v : Value}
  {vs : List Value} {ms : Members}

/-! ### Tidy texts -/

/-- A text that goes on with a line end or with `n` spaces. -/
def Continues (n : Nat) (t : Text) : Prop := t.head? = some '\n' ∨ spaces n <+: t

/-- A printed text whose lines, the first one apart, are empty or indented by `n`. -/
def Tidy (n : Nat) : Text → Prop
  | [] => True
  | c :: t => (IsVisible c ∨ c = '\n' ∧ Continues n t) ∧ Tidy n t

theorem Continues.append (h : Continues n s) (t : Text) : Continues n (s ++ t) := by
  rcases h with h | h
  · exact .inl (by rw [List.head?_append, h, Option.some_or])
  · exact .inr (h.trans (List.prefix_append s t))

theorem continues_spaces (hkn : k ≤ n) (t : Text) : Continues k (spaces n ++ t) := by
  have hsplit : spaces n = spaces k ++ spaces (n - k) := by
    unfold spaces
    rw [List.replicate_append_replicate]
    congr 1
    omega
  rw [hsplit, List.append_assoc]
  exact .inr (List.prefix_append _ _)

theorem Tidy.append (hs : Tidy n s) (ht : Tidy n t) : Tidy n (s ++ t) := by
  induction s with
  | nil => exact ht
  | cons c s ih =>
    obtain ⟨hc, hs⟩ := hs
    refine ⟨hc.imp_right fun h => ⟨h.1, h.2.append t⟩, ih hs⟩

theorem tidy_of_visible (h : ∀ c ∈ t, IsVisible c) : Tidy n t := by
  induction t with
  | nil => trivial
  | cons c t ih =>
    obtain ⟨hc, ht⟩ := List.forall_mem_cons.mp h
    exact ⟨.inl hc, ih ht⟩

theorem tidy_spaces (k : Nat) : Tidy n (spaces k) :=
  tidy_of_visible fun c hc => by
    rw [List.eq_of_mem_replicate hc]
    decide

theorem tidy_newline (hnext : Continues n t) (ht : Tidy n t) : Tidy n ('\n' :: t) :=
  ⟨.inr ⟨rfl, hnext⟩, ht⟩

theorem Tidy.isPrinted (h : Tidy n t) : IsPrinted t := by
  induction t with
  | nil => simp
  | cons c t ih =>
    obtain ⟨hc, ht⟩ := h
    rw [Text.isPrinted_cons]
    exact ⟨hc.symm.imp_left And.left, ih ht⟩

/-! ### Strings -/

theorem head?_folded_line (previous : Option Char) (t : Text) :
    (folded apostrophe indent column previous ('\n' :: t)).head? = some '\n' := by
  rw [folded_line]
  by_cases hprevious : previous = some '\n'
  · rw [if_pos hprevious]
    rfl
  · rw [if_neg hprevious]
    rfl

/-- **A folded string is tidy**: each line end is followed by another or by the
indentation. -/
theorem tidy_folded (hn : n ≤ indent) (happ : ∀ c ∈ apostrophe, IsVisible c) (t : Text) :
    ∀ (column : Nat) (previous : Option Char), IsPrinted t →
      Tidy n (folded apostrophe indent column previous t) := by
  induction t with
  | nil => exact fun _ _ _ => trivial
  | cons c rest ih =>
    intro column previous h
    obtain ⟨hc, hrest⟩ := Text.isPrinted_cons.mp h
    have hindented : ∀ previous,
        Tidy n (spaces indent ++ folded apostrophe indent indent previous rest) :=
      fun previous => (tidy_spaces indent).append (ih indent previous hrest)
    by_cases hline : c = '\n'
    · subst hline
      have hnext : ∀ t, t = (if rest.head? = some '\n' then
          folded apostrophe indent column (some '\n') rest
          else spaces indent ++ folded apostrophe indent indent (some '\n') rest) →
          Continues n t ∧ Tidy n t := by
        rintro t rfl
        split
        · rename_i hhead
          obtain ⟨s, rfl⟩ := List.head?_eq_some_iff.mp hhead
          exact ⟨.inl (head?_folded_line _ s), ih _ _ hrest⟩
        · exact ⟨continues_spaces hn _, hindented _⟩
      obtain ⟨hcontinues, htidy⟩ := hnext _ rfl
      rw [folded_line]
      split
      · exact tidy_newline hcontinues htidy
      · exact tidy_newline (.inl rfl) (tidy_newline hcontinues htidy)
    · have hvisible := hc.resolve_left hline
      rw [folded]
      by_cases hspace : c = ' '
      · rw [if_pos hspace]
        split
        · exact tidy_newline (continues_spaces hn _) (hindented _)
        · exact ⟨.inl (by decide), ih _ _ hrest⟩
      · rw [if_neg hspace, if_neg hline]
        split
        · exact (tidy_of_visible happ).append (ih _ _ hrest)
        · exact ⟨.inl hvisible, ih _ _ hrest⟩

theorem isVisible_escape {e : Text} (h : escape? c = some e) : ∀ d ∈ e, IsVisible d := by
  have hhex : ∀ width, ∀ d ∈ upperHex width c.toNat, IsVisible d := by
    intro width d hd
    obtain ⟨x, hx, rfl⟩ := List.mem_map.mp hd
    obtain ⟨k, hk, rfl⟩ := Text.mem_padded (by omega) hx
    exact Text.isVisible_toUpper_digitChar k hk
  rcases escape?_cases c with ⟨he, -⟩ | ⟨d, hd, he⟩ | ⟨-, he⟩ | ⟨-, he⟩ | ⟨-, he⟩
  · rw [he] at h
    cases h
  · -- the letter of an escape is one that the reader knows
    have hletter : IsVisible d := by
      unfold unescape? at hd
      split at hd <;> first | decide | cases hd
    rw [he, Option.some.injEq] at h
    rw [← h]
    simp [hletter, show IsVisible '\\' by decide]
  all_goals
    rw [he, Option.some.injEq] at h
    rw [← h, List.forall_mem_cons, List.forall_mem_cons]
    exact ⟨by decide, by decide, hhex _⟩

theorem tidy_broken (hn : n ≤ indent) (next : Option Char) : Tidy n (broken indent next) := by
  refine ⟨.inl (by decide), tidy_newline (continues_spaces hn _) ((tidy_spaces indent).append ?_)⟩
  split
  · exact ⟨.inl (by decide), trivial⟩
  · trivial

/-- **An escaped string is tidy**: each broken line goes on with the indentation. -/
theorem tidy_escaped (hn : n ≤ indent) (t : Text) : ∀ (column : Nat) (first afterEscape : Bool),
    Tidy n (escaped indent column first afterEscape t) := by
  induction t with
  | nil => exact fun _ _ _ => trivial
  | cons c rest ih =>
    intro column first afterEscape
    rw [escaped]
    cases hescape : escape? c with
    | none =>
      have hvisible : IsVisible c := (of_escape?_eq_none hescape).1
      simp only
      split
      · exact (tidy_broken hn _).append ⟨.inl hvisible, ih _ _ _⟩
      · exact ⟨.inl hvisible, ih _ _ _⟩
    | some e =>
      have he : Tidy n e := tidy_of_visible (isVisible_escape hescape)
      simp only
      split
      · exact he.append ((tidy_broken hn _).append (ih _ _ _))
      · exact he.append (ih _ _ _)

/-- What stands without quotes or between single quotes is printed. -/
theorem isPrinted_of_style (h : style t ≠ .doubleQuoted) : IsPrinted t := by
  intro c hc
  unfold style at h
  split at h
  · rename_i hplain
    simp only [isPlain, Bool.and_eq_true] at hplain
    obtain ⟨⟨⟨⟨⟨-, hvisible⟩, -⟩, -⟩, -⟩, -⟩ := hplain
    exact .inr (isAsciiPrintable_iff.mp (List.all_eq_true.mp hvisible c hc))
  · split at h
    · rename_i hsingle
      simp only [isSingleQuotable, Bool.and_eq_true, List.all_eq_true, Bool.or_eq_true,
        beq_iff_eq] at hsingle
      exact (hsingle.1 c hc).symm.imp_right isAsciiPrintable_iff.mp
    · exact absurd rfl h

/-- **A value without parts is tidy**, whatever string it is. -/
theorem tidy_scalar (h : Leaf v) (hn : n ≤ indent) (column : Nat) :
    Tidy n (scalar indent column v) := by
  have hquote : ∀ t : Text, Tidy n t → Tidy n (t ++ ['\'']) := fun t ht =>
    ht.append ⟨.inl (by decide), trivial⟩
  cases h with
  | str t =>
    show Tidy n (string indent column t)
    unfold string
    cases hstyle : style t with
    | plain =>
      have ht : IsPrinted t := isPrinted_of_style (by simp [hstyle])
      exact ⟨.inl (by decide), tidy_folded hn (Text.isVisible_of_all rfl) t _ _ ht⟩
    | singleQuoted =>
      have ht : IsPrinted t := isPrinted_of_style (by simp [hstyle])
      exact ⟨.inl (by decide), .inl (by decide),
        hquote _ (tidy_folded hn (Text.isVisible_of_all rfl) t _ _ ht)⟩
    | doubleQuoted =>
      have hlast : Tidy n ['"'] := ⟨.inl (by decide), trivial⟩
      exact ⟨.inl (by decide), .inl (by decide), (tidy_escaped hn t _ _ _).append hlast⟩
  | word h =>
    have hvisible : ∀ c ∈ v.scalar, IsVisible c := by
      cases h with
      | int i => exact Text.isVisible_decimal i
      | bool b => cases b <;> exact Text.isVisible_of_all rfl
      | null | arr | obj => exact Text.isVisible_of_all rfl
    have hscalar : scalar indent column v = ' ' :: v.scalar := by cases h <;> rfl
    rw [hscalar]
    exact ⟨.inl (by decide), tidy_of_visible hvisible⟩

/-! ### Blocks -/

/-- A tidy text and a line end. -/
def Block (n : Nat) (t : Text) : Prop := ∃ body, t = body ++ ['\n'] ∧ Tidy n body

theorem Block.append (hs : Tidy n s) (ht : Block n t) : Block n (s ++ t) := by
  obtain ⟨body, rfl, hbody⟩ := ht
  exact ⟨s ++ body, (List.append_assoc ..).symm, hs.append hbody⟩

theorem Block.isPrinted (h : Block n t) : IsPrinted t := by
  obtain ⟨body, rfl, hbody⟩ := h
  rw [Text.isPrinted_append]
  exact ⟨hbody.isPrinted, by decide⟩

/-- A block goes on with an indented block. -/
theorem Block.next (hs : Block k s) (hkn : k ≤ n) (ht : Block k t) :
    Block k (s ++ (spaces n ++ t)) := by
  obtain ⟨body, rfl, hbody⟩ := hs
  have hrest : Block k ('\n' :: (spaces n ++ t)) := by
    obtain ⟨rest, rfl, hrest⟩ := ht
    refine ⟨'\n' :: (spaces n ++ rest), by simp, ?_⟩
    exact tidy_newline (continues_spaces hkn _) ((tidy_spaces n).append hrest)
  rw [List.append_assoc, List.singleton_append]
  exact .append hbody hrest

theorem IsName.isVisible (h : IsName name) : ∀ c ∈ name, IsVisible c := by
  intro c hc
  rcases h.2 c hc with rfl | ⟨hlow, hhigh⟩
  · decide
  · exact ⟨Char.le_trans (by decide) hlow, Char.le_trans hhigh (by decide)⟩

/-- What follows a key is a block. -/
def KeyBlock (v : Value) : Prop :=
  ∀ {n k column : Nat}, Fits n v → k ≤ n → Block k (afterKey n column v)

/-- What follows a dash is a block. -/
def DashBlock (v : Value) : Prop := ∀ {n k : Nat}, Fits n v → k ≤ n + 2 → Block k (afterDash n v)

/-- The lines of a list are a block behind their first indentation. -/
def ItemsBlock (vs : List Value) : Prop := ∀ {n k : Nat}, (∀ v ∈ vs, Fits n v) → vs ≠ [] → k ≤ n →
  ∃ t, items n vs = spaces n ++ t ∧ Block k t

/-- The lines of an object are a block behind their first indentation. -/
def MembersBlock (ms : Members) : Prop := ∀ {n k : Nat}, FitMembers n ms → ms ≠ [] → k ≤ n →
  ∃ t, members n ms = spaces n ++ t ∧ Block k t

theorem block_line : Block n ['\n'] := ⟨[], rfl, trivial⟩

theorem keyBlock_leaf (hshape : shape v = .leaf) : KeyBlock v := by
  intro n k column hv hk
  have hleaf := leaf_of_shape hv hshape
  exact ⟨_, afterKey_eq_scalar hleaf n column, tidy_scalar hleaf (by omega) column⟩

theorem keyBlock_arr (hitems : ItemsBlock (v :: vs)) : KeyBlock (.arr (v :: vs)) := by
  intro n k column hv hk
  obtain ⟨t, ht, hblock⟩ := hitems (fun x hx => (hv.items x hx).mono (by omega)) (by simp) hk
  rw [afterKey_arr, ht]
  exact block_line.next hk hblock

/-- The members of an object below a key are indented further than the key. -/
theorem block_afterKey_obj (hmembers : MembersBlock ((name, v) :: ms))
    (hv : Fits n (.obj ((name, v) :: ms))) (hk : k ≤ n + 2) :
    Block k (afterKey n column (.obj ((name, v) :: ms))) := by
  obtain ⟨t, ht, hblock⟩ := hmembers hv.members (by simp) hk
  rw [afterKey_obj, ht]
  exact block_line.next hk hblock

theorem keyBlock_obj (hmembers : MembersBlock ((name, v) :: ms)) :
    KeyBlock (.obj ((name, v) :: ms)) :=
  fun hv hk => block_afterKey_obj hmembers hv (by omega)

theorem dashBlock_leaf (hshape : shape v = .leaf) : DashBlock v := by
  intro n k hv hk
  have hleaf := leaf_of_shape hv hshape
  exact ⟨_, afterDash_eq_scalar hleaf n, tidy_scalar hleaf hk (n + 1)⟩

/-- What stands on the line of a dash lacks all but one space of its indentation. -/
theorem eq_of_spaces_append (h : spaces (n + 1) ++ s = spaces (n + 2) ++ t) : s = ' ' :: t := by
  rw [← spaces_succ_append (n + 1) t, List.append_cancel_left_eq] at h
  exact h

theorem Block.cons_space (h : Block k t) : Block k (' ' :: t) :=
  Block.append (s := [' ']) (tidy_spaces 1) h

theorem dashBlock_arr (hitems : ItemsBlock (v :: vs)) : DashBlock (.arr (v :: vs)) := by
  intro n k hv hk
  obtain ⟨t, ht, hblock⟩ := hitems hv.items (by simp) hk
  rw [← afterDash_arr] at ht
  rw [eq_of_spaces_append ht]
  exact hblock.cons_space

theorem dashBlock_obj (hmembers : MembersBlock ((name, v) :: ms)) :
    DashBlock (.obj ((name, v) :: ms)) := by
  intro n k hv hk
  obtain ⟨t, ht, hblock⟩ := hmembers hv.members (by simp) hk
  rw [← afterDash_obj] at ht
  rw [eq_of_spaces_append ht]
  exact hblock.cons_space

theorem itemsBlock_cons (hv : DashBlock v) (hvs : ItemsBlock vs) : ItemsBlock (v :: vs) := by
  intro n k hfit _ hk
  obtain ⟨hfirst, hothers⟩ := List.forall_mem_cons.mp hfit
  have hdash : Block k ('-' :: afterDash n v) :=
    Block.append (s := ['-']) ⟨.inl (by decide), trivial⟩ (hv hfirst (by omega))
  refine ⟨_, by rw [items], ?_⟩
  by_cases hne : vs = []
  · subst hne
    rw [items, List.append_nil]
    exact hdash
  · obtain ⟨t, ht, hblock⟩ := hvs hothers hne hk
    rw [ht]
    exact hdash.next hk hblock

theorem membersBlock_cons (hv : KeyBlock v) (hms : MembersBlock ms) :
    MembersBlock ((name, v) :: ms) := by
  intro n k hfit _ hk
  obtain ⟨⟨hname, hfirst⟩, hothers⟩ := List.forall_mem_cons.mp hfit
  have hkey : Block k (name ++ ':' :: afterKey n (n + name.length + 1) v) := by
    refine .append (tidy_of_visible hname.isVisible) ?_
    exact Block.append (s := [':']) ⟨.inl (by decide), trivial⟩ (hv hfirst hk)
  refine ⟨_, by rw [members], ?_⟩
  by_cases hne : ms = []
  · subst hne
    rw [members, List.append_nil]
    exact hkey
  · obtain ⟨t, ht, hblock⟩ := hms hothers hne hk
    have hnext := hkey.next hk hblock
    rw [List.append_assoc, List.cons_append] at hnext
    rw [ht]
    exact hnext

mutual

/-- **What follows a key or a dash is a block**, whatever strings stand in it. -/
theorem valueBlock : ∀ v : Value, KeyBlock v ∧ DashBlock v
  | .arr (v :: vs) => ⟨keyBlock_arr (itemsBlock (v :: vs)), dashBlock_arr (itemsBlock (v :: vs))⟩
  | .obj ((name, v) :: ms) =>
    ⟨keyBlock_obj (membersBlock ((name, v) :: ms)), dashBlock_obj (membersBlock ((name, v) :: ms))⟩
  | .arr [] | .obj [] | .null | .bool _ | .int _ | .float _ | .str _ =>
    ⟨keyBlock_leaf rfl, dashBlock_leaf rfl⟩

theorem itemsBlock : ∀ vs : List Value, ItemsBlock vs
  | [] => fun _ hne => absurd rfl hne
  | v :: vs => itemsBlock_cons (valueBlock v).2 (itemsBlock vs)

theorem membersBlock : ∀ ms : Members, MembersBlock ms
  | [] => fun _ hne => absurd rfl hne
  | (_, v) :: ms => membersBlock_cons (valueBlock v).1 (membersBlock ms)

end

/-- **A document is printed**, whatever strings stand in it. -/
theorem isPrinted_document (h : FitMembers 0 ms) : IsPrinted (document ms) := by
  by_cases hne : ms = []
  · subst hne
    exact Text.isPrinted_nil
  · obtain ⟨t, ht, hblock⟩ := membersBlock ms h hne (Nat.le_refl 0)
    rw [document, ht]
    exact hblock.isPrinted

/-! ### Lines -/

/-- A line that is empty or indented by `n`. -/
def Indented (n : Nat) (l : Text) : Prop := l = [] ∨ spaces n <+: l

/-- The line after a line end is empty or indented. -/
theorem Continues.indented {l : Text} {ls : List Text} (h : Continues n t)
    (hsplit : t.splitOn '\n' = l :: ls) : Indented n l := by
  rcases h with h | h
  · obtain ⟨s, rfl⟩ := List.head?_eq_some_iff.mp h
    have hempty := Text.splitOn_append_cons '\n' [] s
    rw [List.nil_append, hsplit, List.splitOn_nil] at hempty
    exact .inl (List.cons.inj hempty).1
  · refine .inr (Text.isPrefix_of_splitOn (fun hmem => ?_) h hsplit)
    exact absurd (List.eq_of_mem_replicate hmem) (by decide)

/-- **The lines of a tidy text** but the first are empty or indented. -/
theorem Tidy.indented (h : Tidy n t) : ∀ l ∈ (t.splitOn '\n').tail, Indented n l := by
  induction t with
  | nil => simp
  | cons c t ih =>
    obtain ⟨hc, ht⟩ := h
    obtain ⟨first, others, hsplit⟩ := Text.exists_splitOn '\n' t
    have hothers := ih ht
    rw [hsplit, List.tail_cons] at hothers
    by_cases hline : c = '\n'
    · subst hline
      have hnext : Continues n t := hc.elim (fun h => absurd h (by decide)) And.right
      have hlines := Text.splitOn_append_cons '\n' [] t
      rw [List.nil_append, hsplit, List.splitOn_nil] at hlines
      rw [hlines]
      exact List.forall_mem_cons.mpr ⟨hnext.indented hsplit, hothers⟩
    · rw [Text.splitOn_cons_of_ne hline, hsplit]
      exact hothers

/-- A line that begins with a character other than a space. -/
def isTop : Text → Bool
  | [] => false
  | c :: _ => c != ' '

theorem isTop_eq_false (hn : 0 < n) (h : Indented n s) : isTop s = false := by
  obtain ⟨m, rfl⟩ : ∃ m, n = m + 1 := ⟨n - 1, by omega⟩
  rcases h with rfl | ⟨u, rfl⟩
  · rfl
  · rw [spaces_succ]
    rfl

/-- The lines of `t` that begin with a character other than a space are `tops` in this
order, and its other lines are empty or indented by `n`. -/
structure TopLines (n : Nat) (t : Text) (tops : List Text) : Prop where
  tops : (t.splitOn '\n').filter isTop = tops
  others : ∀ l ∈ t.splitOn '\n', isTop l = true ∨ Indented n l

variable {l x : Text} {tops : List Text}

theorem topLines_nil : TopLines n [] [] where
  tops := rfl
  others := by simp [Indented]

/-- **A block adds one top line**, its first. -/
theorem TopLines.cons (hn : 0 < n) (hs : Block n s) (hl : s = l ++ '\n' :: x) (hline : '\n' ∉ l)
    (htop : isTop l = true) (ht : TopLines n t tops) : TopLines n (s ++ t) (l :: tops) := by
  obtain ⟨body, hbody, htidy⟩ := hs
  obtain ⟨first, others, hsplit⟩ := Text.exists_splitOn '\n' body
  have hothers := htidy.indented
  rw [hsplit, List.tail_cons] at hothers
  have hfirst : first = l := by
    have hlines := congrArg (List.splitOn '\n') (hbody.symm.trans hl)
    rw [Text.splitOn_append_cons, Text.splitOn_append_cons, hsplit,
      List.splitOn_eq_singleton hline] at hlines
    exact (List.cons.inj hlines).1
  have hlines : (s ++ t).splitOn '\n' = l :: (others ++ t.splitOn '\n') := by
    rw [hbody, List.append_assoc, List.singleton_append, Text.splitOn_append_cons, hsplit, hfirst,
      List.cons_append]
  refine ⟨?_, ?_⟩
  · have hnone : others.filter isTop = [] :=
      List.filter_eq_nil_iff.mpr fun m hm => by simp [isTop_eq_false hn (hothers m hm)]
    rw [hlines, List.filter_cons_of_pos htop, List.filter_append, hnone, ht.tops, List.nil_append]
  · rw [hlines]
    refine List.forall_mem_cons.mpr ⟨.inl htop, List.forall_mem_append.mpr ⟨?_, ht.others⟩⟩
    exact fun m hm => .inr (hothers m hm)

/-- **Each item adds one top line**: that of its dash, with what the item begins with. -/
theorem exists_topLines_items {p : Text} (hp : '\n' ∉ p) (htop : ∀ l, p <+: l → isTop l = true) :
    ∀ vs : List Value, (∀ v ∈ vs, Fits 0 v ∧ p <+: '-' :: afterDash 0 v) →
    ∃ tops, tops.length = vs.length ∧ (∀ l ∈ tops, p <+: l) ∧ TopLines 2 (items 0 vs) tops
  | [], _ => ⟨[], rfl, by simp, topLines_nil⟩
  | v :: vs, h => by
    obtain ⟨⟨hfits, hprefix⟩, hvs⟩ := List.forall_mem_cons.mp h
    obtain ⟨tops, hlength, htops, hlines⟩ := exists_topLines_items hp htop vs hvs
    have hblock : Block 2 ('-' :: afterDash 0 v) :=
      Block.append (s := ['-']) ⟨.inl (by decide), trivial⟩ ((valueBlock v).2 hfits (by omega))
    obtain ⟨l, x, hl, hline⟩ : ∃ l x, '-' :: afterDash 0 v = l ++ '\n' :: x ∧ '\n' ∉ l := by
      obtain ⟨body, hbody, -⟩ := hblock
      exact List.eq_append_cons_of_mem (by simp [hbody])
    have hpl : p <+: l := by
      obtain ⟨first, others, hsplit⟩ := Text.exists_splitOn '\n' ('-' :: afterDash 0 v)
      have hfirst := Text.isPrefix_of_splitOn hp hprefix hsplit
      rw [hl, Text.splitOn_append_cons, List.splitOn_eq_singleton hline] at hsplit
      rwa [← (List.cons.inj hsplit).1] at hfirst
    have hitems : items 0 (v :: vs) = ('-' :: afterDash 0 v) ++ items 0 vs := by
      rw [items]
      rfl
    refine ⟨l :: tops, by simp [hlength], List.forall_mem_cons.mpr ⟨hpl, htops⟩, ?_⟩
    rw [hitems]
    exact .cons (by omega) hblock hl hline (htop l hpl) hlines

end Yaml
end ReverseDns
