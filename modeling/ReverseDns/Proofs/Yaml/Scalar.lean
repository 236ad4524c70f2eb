/-
# Values without parts are told apart

A value without parts is written bare, or as a string between single or double quotes.
What stands bare has no quote in front, no line end, and nothing that reads like a
member or an item; a bare string is none of the words that other values are written
as. So the text of such a value, with the line end and the less indented line after
it, tells which value it is (`Form.written_inj`, `form_inj`), and it is never the
beginning of a member or an item (`Form.bare_of_written`).

Key definitions: `Yaml.Leaf`, `Yaml.Form`, `Yaml.Dedented`, `Yaml.IsBare`.
Key theorems: `Yaml.form_inj`, `Yaml.Form.written_inj`, `Yaml.Form.bare_of_written`.
-/
import ReverseDns.Proofs.Json.Layout
import ReverseDns.Proofs.Octet
import ReverseDns.Proofs.Yaml.Pieces
import ReverseDns.Yaml.Block

namespace ReverseDns
namespace Yaml

open Json (Exact Value)
open Text (Spells)

variable {c d : Char} {s t r r' x : Text} {indent column column' n : Nat} {v w : Value}

/-! ### Less indented lines -/

/-- A line is indented by one number of spaces only. -/
theorem spaces_append_inj (hc : c ≠ ' ') (hd : d ≠ ' ') : ∀ {j k : Nat},
    spaces j ++ c :: s = spaces k ++ d :: t → j = k ∧ c = d ∧ s = t
  | 0, 0, h => ⟨rfl, List.cons.inj h⟩
  | 0, _ + 1, h => absurd (List.cons.inj h).1 hc
  | _ + 1, 0, h => absurd (List.cons.inj h).1.symm hd
  | j + 1, k + 1, h => by
    obtain ⟨hjk, hcd, hst⟩ := spaces_append_inj hc hd (List.cons.inj h).2
    exact ⟨by omega, hcd, hst⟩

/-- A text that is at its end or goes on with a line indented by less than `n`. -/
def Dedented (n : Nat) (r : Text) : Prop :=
  r = [] ∨ ∃ k c s, k < n ∧ c ≠ ' ' ∧ c ≠ '\n' ∧ r = spaces k ++ c :: s

theorem Dedented.mono {m : Nat} (hmn : m ≤ n) (h : Dedented m r) : Dedented n r := by
  rcases h with rfl | ⟨k, c, s, hk, hc⟩
  · exact .inl rfl
  · exact .inr ⟨k, c, s, by omega, hc⟩

theorem Dedented.not_isPrefix (hn : 0 < n) (h : Dedented n r) : ¬ spaces n <+: r := by
  rintro ⟨u, rfl⟩
  rcases h with h | ⟨k, c, s, hk, hspace, -, h⟩
  · obtain ⟨m, rfl⟩ : ∃ m, n = m + 1 := ⟨n - 1, by omega⟩
    rw [spaces_succ] at h
    simp at h
  · obtain ⟨m, rfl⟩ : ∃ m, n = k + (m + 1) := ⟨n - k - 1, by omega⟩
    have hsplit : spaces (k + (m + 1)) = spaces k ++ ' ' :: spaces m := by
      rw [← spaces_succ]
      exact List.replicate_add k (m + 1) ' '
    rw [hsplit, List.append_assoc, List.append_cancel_left_eq] at h
    exact hspace (List.cons.inj h).1.symm

theorem Dedented.head?_ne (h : Dedented n r) : r.head? ≠ some '\n' := by
  rcases h with rfl | ⟨k, c, s, -, -, hline, rfl⟩
  · simp
  · cases k with
    | zero => simpa [spaces] using hline
    | succ k => simp [spaces_succ]

/-- The reader of a folded text stops at the end of its last line. -/
theorem Dedented.readFolded_eq_none (hn : 0 < n) (h : Dedented n r) (apostrophe : Text) :
    readFolded apostrophe n ('\n' :: r) = none := by
  have htake : r.takeWhile (· == '\n') = [] ∧ r.dropWhile (· == '\n') = r := by
    have hhead := h.head?_ne
    cases r with
    | nil => exact ⟨rfl, rfl⟩
    | cons c r =>
      have hc : ¬ (c == '\n') = true := by simpa using hhead
      exact ⟨List.takeWhile_cons_of_neg hc, List.dropWhile_cons_of_neg hc⟩
  rw [readFolded, htake.1, htake.2, if_neg (h.not_isPrefix hn)]

/-! ### Bare texts -/

/-- A text that can stand without quotes: it has no quote or space in front and no line
end, and nothing in it reads like the name of a member or the dash of an item. -/
structure IsBare (t : Text) : Prop where
  head : ∃ c s, t = c :: s ∧ c ≠ ' ' ∧ c ≠ '\'' ∧ c ≠ '"'
  line : '\n' ∉ t
  colon : ∀ p s, t = p ++ ':' :: s → endsWord s = false
  dash : ∀ s, t = '-' :: s → endsWord s = false

theorem hasIndicator_append (hs : endsWord s = true) : ∀ (p : Text) (previous : Char),
    hasIndicator previous (p ++ ':' :: s) = true
  | [], _ => by simp [hasIndicator, hs]
  | c :: p, previous => by simp [hasIndicator, hasIndicator_append hs p c]

theorem beginsMarkup_cons (hc : openers.contains c = true) (s : Text) :
    beginsMarkup (c :: s) = true := by
  simp only [beginsMarkup, hc, Bool.true_or, Bool.or_true]

theorem isBare_of_isPlain (h : isPlain t = true) : IsBare t := by
  simp only [isPlain, Bool.and_eq_true, Bool.not_eq_true', bne_iff_ne] at h
  obtain ⟨⟨⟨⟨⟨htyped, hvisible⟩, hhead⟩, -⟩, hmarkup⟩, hindicator⟩ := h
  refine ⟨?_, fun hline => ?_, fun p s hcolon => ?_, fun s hdash => ?_⟩
  · cases t with
    | nil => simp [isTyped] at htyped
    | cons c s =>
      have hopener : openers.contains c ≠ true := fun hc =>
        Bool.false_ne_true (hmarkup.symm.trans (beginsMarkup_cons hc s))
      refine ⟨c, s, rfl, fun h => hhead (by rw [h]; rfl), ?_, ?_⟩ <;> rintro rfl <;>
        exact hopener (by decide)
  · exact absurd (List.all_eq_true.mp hvisible _ hline) (by decide)
  · cases hs : endsWord s with
    | false => rfl
    | true =>
      rw [hcolon, hasIndicator_append hs] at hindicator
      exact absurd hindicator (by simp)
  · cases hs : endsWord s with
    | false => rfl
    | true =>
      rw [hdash] at hmarkup
      simp [beginsMarkup, hs] at hmarkup

/-- A text without white space, colons and quotes. -/
def IsSolid (t : Text) : Prop := ∀ c ∈ t, c ≠ ' ' ∧ c ≠ '\n' ∧ c ≠ ':' ∧ c ≠ '\'' ∧ c ≠ '"'

instance (t : Text) : Decidable (IsSolid t) := List.decidableBAll _ t

/-- A solid text other than a dash can stand bare. -/
theorem IsSolid.isBare (h : IsSolid t) (hne : t ≠ []) (hdash : t ≠ ['-']) : IsBare t := by
  refine ⟨?_, fun hline => (h _ hline).2.1 rfl, fun p s hcolon => ?_, fun s hs => ?_⟩
  · cases t with
    | nil => exact absurd rfl hne
    | cons c s =>
      obtain ⟨hspace, -, -, hsingle, hdouble⟩ := h c List.mem_cons_self
      exact ⟨c, s, rfl, hspace, hsingle, hdouble⟩
  · exact absurd rfl (h ':' (by simp [hcolon])).2.2.1
  · cases s with
    | nil => exact absurd hs hdash
    | cons c s =>
      have hc := (h c (by simp [hs])).1
      simpa [endsWord] using hc

/-- A solid text has no space at which its line could be broken. -/
theorem IsSolid.folded_eq : ∀ {t : Text} {column : Nat} {previous : Option Char}, IsSolid t →
    folded ['\''] indent column previous t = t
  | [], _, _, _ => rfl
  | c :: t, column, previous, h => by
    obtain ⟨⟨hspace, hline, -, hquote, -⟩, ht⟩ := List.forall_mem_cons.mp h
    rw [folded, if_neg hspace, if_neg hline, if_neg hquote, IsSolid.folded_eq ht]

theorem isSolid_decimal (n : Int) : IsSolid (Text.decimal n) := by
  intro c hc
  rcases Text.mem_decimal hc with rfl | hdigit
  · decide
  · refine ⟨?_, ?_, ?_, ?_, ?_⟩ <;> rintro rfl <;> exact absurd hdigit (by decide)

theorem isBare_decimal (n : Int) : IsBare (Text.decimal n) := by
  refine (isSolid_decimal n).isBare ?_ ?_ <;>
    rcases Text.decimal_cases n with ⟨-, hn⟩ | ⟨-, hn⟩ <;> rw [hn]
  · exact Nat.toDigits_ne_nil
  · simp
  · exact (Text.minus_ne_toDigits _ _).symm
  · simp [Nat.toDigits_ne_nil]

/-- An unquoted decimal text is read as a number. -/
theorem isInteger_toDigits (n : Nat) {t : Text} (ht : unsigned t = Nat.toDigits 10 n) :
    isInteger t = true := by
  have hdigits : ∀ c ∈ Nat.toDigits 10 n, c.isDigit = true := fun c hc =>
    Text.isDigit_of_mem_toDigits hc
  unfold isInteger
  rw [ht]
  rcases Nat.eq_zero_or_pos n with rfl | hn
  · rfl
  · have hzero := Octet.head?_toDigits_ne_zero 10 (by decide) (by decide) n hn
    cases hds : Nat.toDigits 10 n with
    | nil => exact absurd hds Nat.toDigits_ne_nil
    | cons c ds =>
      rw [hds] at hdigits hzero
      have hc : c ≠ '0' := by simpa using hzero
      obtain ⟨hfirst, hothers⟩ := List.forall_mem_cons.mp hdigits
      have hall : ds.all isDigitOrBar = true :=
        List.all_eq_true.mpr fun d hd => by simp [isDigitOrBar, hothers d hd]
      simp [hc, hfirst, hall]

theorem isInteger_decimal (n : Int) : isInteger (Text.decimal n) = true := by
  refine isInteger_toDigits n.natAbs ?_
  rcases Text.decimal_cases n with ⟨-, hn⟩ | ⟨-, hn⟩ <;> rw [hn]
  · -- digits have no sign to take off
    have hdigit := fun c hc => Text.isDigit_of_mem_toDigits (n := n.natAbs) (c := c) hc
    unfold unsigned
    split <;> rename_i h
    · exact absurd (hdigit '+' (by simp [h])) (by decide)
    · exact absurd (hdigit '-' (by simp [h])) (by decide)
    · rfl
  · rfl

/-! ### Words for values that are no strings -/

/-- A value without parts that is no string and no double. -/
inductive IsWord : Value → Prop
  | null : IsWord .null
  | bool (b : Bool) : IsWord (.bool b)
  | int (n : Int) : IsWord (.int n)
  | arr : IsWord (.arr [])
  | obj : IsWord (.obj [])

namespace IsWord

theorem isSolid (h : IsWord v) : IsSolid v.scalar := by
  cases h with
  | int n => exact isSolid_decimal n
  | bool b => cases b <;> decide
  | null | arr | obj => decide

theorem isBare (h : IsWord v) : IsBare v.scalar := by
  cases h with
  | int n => exact isBare_decimal n
  | bool b => cases b <;> exact (IsWord.bool _).isSolid.isBare (by decide) (by decide)
  | null => exact IsWord.null.isSolid.isBare (by decide) (by decide)
  | arr => exact IsWord.arr.isSolid.isBare (by decide) (by decide)
  | obj => exact IsWord.obj.isSolid.isBare (by decide) (by decide)

/-- No word is a string that stands without quotes. -/
theorem isPlain_eq_false (h : IsWord v) : isPlain v.scalar = false := by
  cases h with
  | int n =>
    have htyped : isTyped (Text.decimal n) = true := by
      simp only [isTyped, isInteger_decimal, Bool.or_true, Bool.true_or]
    simp only [Value.scalar, isPlain, htyped, Bool.not_true, Bool.false_and]
  | bool b => cases b <;> decide
  | null | arr | obj => decide

/-- Words are told apart, as they are in JSON. -/
theorem scalar_inj (hv : IsWord v) (hw : IsWord w) (h : v.scalar = w.scalar) : v = w := by
  have hread : ∀ {v : Value}, IsWord v → Json.read? v.scalar = some v := by
    intro v hv
    cases hv with
    | null => exact Json.read?_compact .null
    | bool b => exact Json.read?_compact (.bool b)
    | int n => exact Json.read?_compact (.int n)
    | arr => exact Json.read?_compact (v := .arr []) (.arr (by simp))
    | obj => exact Json.read?_compact (v := .obj []) (.obj (by simp) (by simp))
  have hvw := hread hv
  rw [h, hread hw, Option.some.injEq] at hvw
  exact hvw.symm

end IsWord

/-! ### Forms -/

/-- A value without parts and without doubles. -/
inductive Leaf : Value → Prop
  | str (t : Text) : Leaf (.str t)
  | word {v : Value} (h : IsWord v) : Leaf v

/-- How a value without parts is written: bare, or between single or double quotes. -/
inductive Form
  | bare (t : Text)
  | single (t : Text)
  | double (t : Text)

/-- A text in a style. -/
def Form.ofStyle (t : Text) : Style → Form
  | .plain => .bare t
  | .singleQuoted => .single t
  | .doubleQuoted => .double t

/-- The form of a value without parts. -/
def form : Value → Form
  | .str t => .ofStyle t (style t)
  | v => .bare v.scalar

theorem form_str (t : Text) : (isPlain t = true ∧ form (.str t) = .bare t) ∨
    form (.str t) = .single t ∨ form (.str t) = .double t := by
  have hform : form (.str t) = Form.ofStyle t (style t) := rfl
  rw [hform, style]
  by_cases hplain : isPlain t = true
  · rw [if_pos hplain]
    exact .inl ⟨hplain, rfl⟩
  · rw [if_neg hplain]
    by_cases hsingle : isSingleQuotable t = true
    · rw [if_pos hsingle]
      exact .inr (.inl rfl)
    · rw [if_neg hsingle]
      exact .inr (.inr rfl)

theorem form_word (h : IsWord v) : form v = .bare v.scalar := by
  cases h <;> rfl

/-- **Values without parts have different forms.** -/
theorem form_inj (hv : Leaf v) (hw : Leaf w) (h : form v = form w) : v = w := by
  cases hv with
  | str s =>
    cases hw with
    | str t =>
      rcases form_str s with ⟨-, hs⟩ | hs | hs <;> rcases form_str t with ⟨-, ht⟩ | ht | ht <;>
        rw [hs, ht] at h <;> cases h <;> rfl
    | word hw =>
      rw [form_word hw] at h
      rcases form_str s with ⟨hplain, hs⟩ | hs | hs <;> rw [hs] at h <;> cases h
      rw [hw.isPlain_eq_false] at hplain
      exact absurd hplain Bool.false_ne_true
  | word hv =>
    rw [form_word hv] at h
    cases hw with
    | str t =>
      rcases form_str t with ⟨hplain, ht⟩ | ht | ht <;> rw [ht] at h <;> cases h
      rw [hv.isPlain_eq_false] at hplain
      exact absurd hplain Bool.false_ne_true
    | word hw =>
      rw [form_word hw] at h
      exact hv.scalar_inj hw (Form.bare.inj h)

namespace Form

/-- A form whose text can be written that way. -/
def IsFit : Form → Prop
  | .bare t => IsBare t
  | _ => True

/-- The text of a form from `column` on, the next lines indented by `indent`. -/
def written (indent column : Nat) : Form → Text
  | .bare t => folded ['\''] indent column none t
  | .single t => '\'' :: (folded ['\'', '\''] indent (column + 1) none t ++ ['\''])
  | .double t => '"' :: (escaped indent (column + 1) true false t ++ ['"'])

end Form

theorem isFit_form (h : Leaf v) : (form v).IsFit := by
  cases h with
  | str t =>
    rcases form_str t with ⟨hplain, ht⟩ | ht | ht <;> rw [ht]
    · exact isBare_of_isPlain hplain
    · trivial
    · trivial
  | word h =>
    rw [form_word h]
    exact h.isBare

/-- **A value without parts is written in its form.** -/
theorem scalar_eq (h : Leaf v) (indent column : Nat) :
    scalar indent column v = ' ' :: (form v).written indent (column + 1) := by
  cases h with
  | str t =>
    show string indent column t = ' ' :: (Form.ofStyle t (style t)).written indent (column + 1)
    unfold string
    cases style t <;> rfl
  | word h =>
    have hscalar : scalar indent column v = ' ' :: v.scalar := by cases h <;> rfl
    rw [hscalar, form_word h, Form.written, h.isSolid.folded_eq]

/-! ### Written forms are told apart -/

/-- What stands bare has no quote in front. -/
theorem IsBare.folded_ne {q : Char} (h : IsBare t) (hq : q = '\'' ∨ q = '"') (x : Text) :
    folded ['\''] indent column none t ++ r ≠ q :: x := by
  obtain ⟨c, s, rfl, hspace, hsingle, hdouble⟩ := h.head
  have hline : c ≠ '\n' := fun hc => h.line (by simp [hc])
  rw [folded, if_neg hspace, if_neg hline, if_neg hsingle, List.cons_append]
  intro heq
  have hcq := (List.cons.inj heq).1
  rcases hq with rfl | rfl
  · exact hsingle hcq
  · exact hdouble hcq

/-- The reader of a text between single quotes stops at the last of them. -/
theorem readFolded_single_eq_none (r : Text) :
    readFolded ['\'', '\''] indent ('\'' :: '\n' :: r) = none := by
  rw [readFolded, if_neg]
  rintro ⟨u, hu⟩
  simp at hu

namespace Form

variable {f g : Form}

/-- **Written forms are told apart**, with the less indented lines after them. -/
theorem written_inj (hpos : 0 < indent) (hwidth : indent < width) (hf : f.IsFit) (hg : g.IsFit)
    (hr : Dedented indent r) (hr' : Dedented indent r')
    (h : f.written indent column ++ '\n' :: r = g.written indent column' ++ '\n' :: r') :
    f = g ∧ r = r' := by
  have hsingle : ∀ {apostrophe : Text} (column : Nat) (t : Text), (∃ a, apostrophe = '\'' :: a) →
      Spells (readFolded apostrophe indent) (folded apostrophe indent column none t) t :=
    fun column t happ => spells_folded happ hpos column t
  cases f with
  | bare t =>
    cases g with
    | bare t' =>
      obtain ⟨rfl, hrest⟩ := (hsingle _ t ⟨[], rfl⟩).unique (hsingle _ t' ⟨[], rfl⟩)
        (hr.readFolded_eq_none hpos _) (hr'.readFolded_eq_none hpos _) h
      exact ⟨rfl, (List.cons.inj hrest).2⟩
    | single t' => exact absurd h (IsBare.folded_ne hf (.inl rfl) _)
    | double t' => exact absurd h (IsBare.folded_ne hf (.inr rfl) _)
  | single t =>
    cases g with
    | bare t' => exact absurd h.symm (IsBare.folded_ne hg (.inl rfl) _)
    | single t' =>
      simp only [written, List.cons_append, List.append_assoc, List.nil_append] at h
      obtain ⟨rfl, hrest⟩ := (hsingle _ t ⟨_, rfl⟩).unique (hsingle _ t' ⟨_, rfl⟩)
        (readFolded_single_eq_none r) (readFolded_single_eq_none r') (List.cons.inj h).2
      exact ⟨rfl, (List.cons.inj (List.cons.inj hrest).2).2⟩
    | double t' => exact absurd (List.cons.inj h).1 (by decide)
  | double t =>
    cases g with
    | bare t' => exact absurd h.symm (IsBare.folded_ne hg (.inr rfl) _)
    | single t' => exact absurd (List.cons.inj h).1 (by decide)
    | double t' =>
      simp only [written, List.cons_append, List.append_assoc, List.nil_append] at h
      obtain ⟨rfl, hrest⟩ := (spells_escaped hwidth t _ _ _).unique (spells_escaped hwidth t' _ _ _)
        rfl rfl (List.cons.inj h).2
      exact ⟨rfl, (List.cons.inj (List.cons.inj hrest).2).2⟩

/-- A blank in front of a folded text is a space or a line end of the string. -/
theorem endsWord_of_spells {w s : Text} (h : Spells (readFolded ['\''] indent) w s)
    (hline : '\n' ∉ s) {b : Char} (hb : b = ' ' ∨ b = '\n') (heq : w ++ r = b :: x) :
    endsWord s = true := by
  cases h with
  | nil => rfl
  | @cons piece part w s reads _ =>
    have hread := reads (w ++ r)
    rw [← List.append_assoc, heq] at hread
    have hpart : part = [' '] ∨ ∃ u, part = '\n' :: u := by
      rcases hb with rfl | rfl
      · rw [readFolded_cons (by decide) (by decide), Option.some.injEq, Prod.mk.injEq] at hread
        exact .inl hread.1.symm
      · exact of_readFolded_line hread
    rcases hpart with rfl | ⟨u, rfl⟩
    · rfl
    · exact absurd (by simp) hline

/-- **A written form with a blank in it is bare** up to the blank, if it has no quote in
front. -/
theorem bare_of_written (hpos : 0 < indent) (hf : f.IsFit) (hr : Dedented indent r) {p : Text}
    {b : Char} (hp : ∃ c q, p = c :: q ∧ c ≠ '\'' ∧ c ≠ '"') (hline : '\n' ∉ p)
    (hb : b = ' ' ∨ b = '\n') (h : f.written indent column ++ '\n' :: r = p ++ b :: x) :
    ∃ s, f = .bare (p ++ s) ∧ endsWord s = true := by
  obtain ⟨c, q, rfl, hsingle, hdouble⟩ := hp
  cases f with
  | bare t =>
    have hself : Spells (readFolded ['\''] indent) (c :: q) (c :: q) := by
      refine Spells.of_forall fun d hd rest => ?_
      by_cases hquote : d = '\''
      · rw [hquote]
        exact readFolded_apostrophe ⟨[], rfl⟩ rest
      · exact readFolded_cons (fun hd' => hline (hd' ▸ hd)) hquote rest
    obtain ⟨w, s, hws, rfl, hw⟩ := hself.prefix_of_eq (spells_folded ⟨[], rfl⟩ hpos column t)
      (hr.readFolded_eq_none hpos _) h
    refine ⟨s, rfl, endsWord_of_spells hws (fun hs => hf.line ?_) hb hw⟩
    exact List.mem_append_right _ hs
  | single t => exact absurd (List.cons.inj h).1.symm hsingle
  | double t => exact absurd (List.cons.inj h).1.symm hdouble

end Form

end Yaml
end ReverseDns
