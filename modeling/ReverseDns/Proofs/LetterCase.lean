/-
# Texts and errors that differ in the case of letters

`Text.Recased s t`: `t` is `s` with any of its ASCII letters in the other case,
which is to say that both are the same in lower case (`recased_iff`). Two errors
are alike but for case if they have class, subject, lengths and fixed message in
common and quote recased texts (`Error.AlikeButCase`). `Error.lowered` puts all
that an error and its causes quote in lower case; errors that are then the same
have chains of alike errors (`Error.forall₂_chain_of_lowered_eq`).

Key definitions: `Text.Recased`, `Error.AlikeButCase`, `Error.lowered`.
Key theorems: `Text.recased_iff`, `Error.forall₂_chain_of_lowered_eq`.
-/
import ReverseDns.Error.Class
import ReverseDns.Proofs.ReverseName.FirstFault

namespace ReverseDns

/-! ### Texts -/

namespace Text

/-- `t` is `s` with any of its ASCII letters, at any places, in the other case. -/
def Recased (s t : Text) : Prop :=
  List.Forall₂ (fun c d => d = c ∨ d = c.toLower ∨ d = c.toUpper) s t

variable {c d : Char} {s t : Text}

theorem toNat_toUpper (c : Char) :
    c.toUpper.toNat = if 97 ≤ c.toNat ∧ c.toNat ≤ 122 then c.toNat - 32 else c.toNat := by
  unfold Char.toUpper
  by_cases h : c.val ≥ 'a'.val ∧ c.val ≤ 'z'.val
  · have h' : 97 ≤ c.toNat ∧ c.toNat ≤ 122 := h
    rw [dif_pos h, if_pos h']
    show (c.val + ('A'.val - 'a'.val)).toNat = c.toNat - 32
    rw [UInt32.toNat_add]
    have : ('A'.val - 'a'.val).toNat = 2 ^ 32 - 32 := rfl
    have : c.val.toNat = c.toNat := rfl
    omega
  · have h' : ¬ (97 ≤ c.toNat ∧ c.toNat ≤ 122) := h
    rw [dif_neg h, if_neg h']

theorem recased_char_iff : (d = c ∨ d = c.toLower ∨ d = c.toUpper) ↔ c.toLower = d.toLower := by
  simp only [← Char.toNat_inj, toNat_toLower, toNat_toUpper]
  split <;> split <;> split <;> omega

theorem recased_iff : Recased s t ↔ s.map Char.toLower = t.map Char.toLower := by
  unfold Recased
  simp only [recased_char_iff]
  rw [← List.forall₂_eq_eq_eq, List.forall₂_map_left_iff, List.forall₂_map_right_iff]

/-- What is in lower case stays as it is in lower case. -/
theorem toLower_toLower (c : Char) : c.toLower.toLower = c.toLower :=
  (recased_char_iff.mp (Or.inr (Or.inl rfl))).symm

/-- Only the character itself has a lower case below the capitals. -/
theorem toLower_eq_iff (hd : d.toNat < 65) : c.toLower = d ↔ c = d := by
  rw [← Char.toNat_inj, ← Char.toNat_inj, toNat_toLower]
  split <;> omega

theorem isDigit_toLower (c : Char) : c.toLower.isDigit = c.isDigit := by
  rw [Bool.eq_iff_iff, Char.isDigit_iff_toNat, Char.isDigit_iff_toNat, toNat_toLower]
  show 48 ≤ _ ∧ _ ≤ 57 ↔ 48 ≤ _ ∧ _ ≤ 57
  split <;> omega

/-- Words stay apart where they were if the separator is changed to, and only by,
itself. -/
theorem splitOn_map {sep : Char} (f : Char → Char) (hf : ∀ c, f c = sep ↔ c = sep) :
    ∀ t : Text, (t.map f).splitOn sep = (t.splitOn sep).map (List.map f)
  | [] => by simp
  | c :: t => by
    have ih := splitOn_map f hf t
    by_cases hc : c = sep
    · subst hc
      have hsep : f c = c := (hf c).mpr rfl
      have h := splitOn_append_cons c [] t
      have h' := splitOn_append_cons c [] (t.map f)
      rw [List.nil_append] at h h'
      rw [List.map_cons, hsep, h, h', ih]
      simp
    · have hne : f c ≠ sep := mt (hf c).mp hc
      obtain ⟨w, ws, hw⟩ := exists_splitOn sep t
      rw [List.map_cons, splitOn_cons_of_ne hne, splitOn_cons_of_ne hc, ih, hw]
      simp

end Text

/-! ### Errors -/

namespace Error

/-- What the message of an error says it is about. -/
def subject? : Error → Option Text
  | malformed subject _ | malformedBy subject _ _ | rune subject _ | length subject _ _ _ => some subject
  | _ => none

/-- The length that an error reports, the allowed one and the limit. -/
def lengths? : Error → Option (Int × Option Int × Option Int)
  | length _ n allowed limit => some (n, allowed, limit)
  | _ => none

/-- The message of an error that has a fixed one. -/
def fixedText? : Error → Option Text
  | invalid m | emptyLabel m | notReversed m | general m => some m
  | _ => none

/-- Two errors, their causes aside, that differ at most in the case of letters that
they quote. -/
structure AlikeButCase (e e' : Error) : Prop where
  class_ : e.class_ = e'.class_
  subject : e.subject? = e'.subject?
  lengths : e.lengths? = e'.lengths?
  fixedText : e.fixedText? = e'.fixedText?
  fragment : Option.Rel Text.Recased e.fragment? e'.fragment?

/-- The error with all that it and its causes quote in lower case. -/
def lowered : Error → Error
  | malformed subject value => malformed subject (value.map Char.toLower)
  | malformedBy subject value cause => malformedBy subject (value.map Char.toLower) (lowered cause)
  | rune subject r => rune subject (r.map Char.toLower)
  | e => e

variable {e e' : Error}

theorem class_lowered (e : Error) : (lowered e).class_ = e.class_ := by cases e <;> rfl

theorem subject?_lowered (e : Error) : (lowered e).subject? = e.subject? := by cases e <;> rfl

theorem lengths?_lowered (e : Error) : (lowered e).lengths? = e.lengths? := by cases e <;> rfl

theorem fixedText?_lowered (e : Error) : (lowered e).fixedText? = e.fixedText? := by cases e <;> rfl

theorem fragment?_lowered (e : Error) :
    (lowered e).fragment? = e.fragment?.map (List.map Char.toLower) := by
  cases e <;> rfl

theorem chain_lowered : ∀ e : Error, (lowered e).chain = e.chain.map lowered
  | malformedBy subject value cause => by
    rw [lowered, chain, chain_lowered cause, chain, List.map_cons, lowered]
  | malformed .. | rune .. | length .. | invalid _ | emptyLabel _ | notReversed _ | general _ => rfl

theorem alikeButCase_of_lowered_eq (h : lowered e = lowered e') : AlikeButCase e e' where
  class_ := by rw [← class_lowered e, h, class_lowered]
  subject := by rw [← subject?_lowered e, h, subject?_lowered]
  lengths := by rw [← lengths?_lowered e, h, lengths?_lowered]
  fixedText := by rw [← fixedText?_lowered e, h, fixedText?_lowered]
  fragment := by
    have hf := fragment?_lowered e
    rw [h, fragment?_lowered] at hf
    cases he : e.fragment? <;> cases he' : e'.fragment? <;> rw [he, he'] at hf <;> simp at hf
    · exact .none
    · exact .some (Text.recased_iff.mpr hf.symm)

/-- Errors that are the same in lower case have chains that are alike, link by link. -/
theorem forall₂_chain_of_lowered_eq (h : lowered e = lowered e') :
    List.Forall₂ AlikeButCase e.chain e'.chain := by
  have hchain : e.chain.map lowered = e'.chain.map lowered := by
    rw [← chain_lowered, h, chain_lowered]
  rw [← List.forall₂_eq_eq_eq, List.forall₂_map_left_iff, List.forall₂_map_right_iff] at hchain
  exact hchain.imp fun _ _ => alikeButCase_of_lowered_eq

end Error
end ReverseDns
