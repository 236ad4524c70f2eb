/-
# The message of a name that is not accepted

The message begins with the name between quotes, and a quoted text is told apart from what
follows it, so no two names have the same message (`ReverseName.message_eq_iff`). Whatever
else is in the message is visible ASCII or quoted from the name. A quote escapes what is
not visible before the last character of ASCII and leaves the rest as it is
(`ReverseName.mem_message_iff`). So no character of ASCII ends a line of a message, but
the three line ends beyond ASCII do wherever they stand in the name
(`ReverseName.isLine_message_iff`).

Key definitions: `Error.IsPlain`, `Text.lineEnds`, `Text.wideLineEnds`, `Text.IsLine`.
Key theorems: `Error.mem_message_iff`, `ReverseName.message_eq_iff`,
`ReverseName.mem_message_iff`, `ReverseName.quoting_unambiguous`,
`ReverseName.isLine_message_iff`.
-/
import Mathlib.Data.Bool.AllAny
import ReverseDns.Proofs.Conversion.Detection
import ReverseDns.Proofs.LetterCase
import ReverseDns.Proofs.Text.Quoted

namespace ReverseDns

open Text (IsVisible)

/-! ### Names are told apart -/

namespace ReverseName

variable {name name' : Text} {err err' : Error}

/-- **No two names have the same message.** -/
theorem message_eq_iff (h : decode name = .error err) (h' : decode name' = .error err') :
    err.message = err'.message ↔ name = name' := by
  constructor
  · intro hmessage
    obtain ⟨rest, hrest⟩ := quote_isPrefix_of_decode h
    obtain ⟨rest', hrest'⟩ := quote_isPrefix_of_decode h'
    rw [← hrest, ← hrest', List.append_assoc, List.append_assoc] at hmessage
    exact (Text.quote_append_inj.mp (List.append_cancel_left hmessage)).1
  · rintro rfl
    rw [Except.error.inj (h.symm.trans h')]

/-- **Quoting is unambiguous.** A quoted text is told apart from what follows it, so the
messages of two names differ; and no two texts look alike between single quotes. -/
theorem quoting_unambiguous :
    (∀ a b s t : Text, Text.quote a ++ s = Text.quote b ++ t → a = b ∧ s = t) ∧
    (∀ name name' err err', decode name = .error err → decode name' = .error err' →
      name ≠ name' → err.message ≠ err'.message) ∧
    ∀ a b : Text, Text.quoteRune a = Text.quoteRune b → a = b :=
  ⟨fun _ _ _ _ => Text.quote_append_inj.mp,
    fun _ _ _ _ h h' hne hmessage => hne ((message_eq_iff h h').mp hmessage),
    fun _ _ h => Text.quoteRune_injective h⟩

/-- Two names of backslashes and quotes that differ in one backslash. -/
theorem quoting_unambiguous_backslashes :
    let name : Text := ['\\', '"', '\\', '\\', '"']
    let name' : Text := ['\\', '\\', '"', '\\', '\\', '"']
    let cause := Error.notReversed Error.notReversedText
    let err := Error.malformedBy Subject.reverseName name cause
    let err' := Error.malformedBy Subject.reverseName name' cause
    decode name = .error err ∧ decode name' = .error err' ∧ err.message ≠ err'.message ∧
      (∀ s t : Text, Text.quote name ++ s ≠ Text.quote name' ++ t) ∧
      (∀ t : Text, Text.quote name ++ ['"'] = Text.quote name ++ t → t = ['"']) ∧
      Text.quoteRune name ≠ Text.quoteRune name' := by
  intro name name' cause err err'
  obtain ⟨hquote, hmessage, hrune⟩ := quoting_unambiguous
  have hne : name ≠ name' := by decide
  have h : decode name = .error err := by decide
  have h' : decode name' = .error err' := by decide
  exact ⟨h, h', hmessage name name' err err' h h' hne,
    fun s t heq => hne (hquote name name' s t heq).1,
    fun t heq => (hquote name name ['"'] t heq).2.symm, fun heq => hne (hrune name name' heq)⟩

end ReverseName

/-! ### What is not visible -/

namespace Error

/-- An error whose subject and fixed message are visible ASCII. -/
structure IsPlain (e : Error) : Prop where
  subject : ∀ t ∈ e.subject?, ∀ c ∈ t, IsVisible c
  fixedText : ∀ t ∈ e.fixedText?, ∀ c ∈ t, IsVisible c

variable {e : Error} {c : Char} {t : Text}

theorem isVisible_limitText : ∀ limit : Option Int, ∀ c ∈ limitText limit, IsVisible c
  | none => Text.isVisible_of_all rfl
  | some n => Text.isVisible_decimal n

theorem isVisible_headline_length {subject : Text} (h : ∀ c ∈ subject, IsVisible c) (n : Int)
    (allowed limit : Option Int) : ∀ c ∈ (length subject n allowed limit).headline, IsVisible c := by
  have hstart : ∀ c ∈ "bad ".toList ++ subject ++ " length ".toList ++ Text.decimal n, IsVisible c := by
    simp only [List.forall_mem_append]
    exact ⟨⟨⟨Text.isVisible_of_all rfl, h⟩, Text.isVisible_of_all rfl⟩, Text.isVisible_decimal n⟩
  cases allowed with
  | some a =>
    show ∀ c ∈ "bad ".toList ++ subject ++ " length ".toList ++ Text.decimal n
      ++ ", allowed: ".toList ++ Text.decimal a, IsVisible c
    simp only [List.forall_mem_append] at hstart ⊢
    exact ⟨⟨hstart, Text.isVisible_of_all rfl⟩, Text.isVisible_decimal a⟩
  | none =>
    show ∀ c ∈ "bad ".toList ++ subject ++ " length ".toList ++ Text.decimal n
      ++ ", max: ".toList ++ limitText limit, IsVisible c
    simp only [List.forall_mem_append] at hstart ⊢
    exact ⟨⟨hstart, Text.isVisible_of_all rfl⟩, isVisible_limitText limit⟩

/-- Only what an error quotes is not visible in its headline. -/
theorem mem_headline_iff (h : e.IsPlain) (hc : ¬ IsVisible c) :
    c ∈ e.headline ↔ 0x7f ≤ c.toNat ∧ ∃ t ∈ e.fragment?, c ∈ t := by
  have hnot : ∀ {t : Text}, (∀ d ∈ t, IsVisible d) → c ∉ t := fun ht hmem => hc (ht c hmem)
  have hbad : c ∉ "bad ".toList := hnot (Text.isVisible_of_all rfl)
  cases e with
  | malformed subject value | malformedBy subject value cause =>
    have hsubject := hnot (h.subject subject rfl)
    have hspace : c ≠ ' ' := fun heq => hc (heq ▸ by decide)
    show c ∈ "bad ".toList ++ subject ++ ' ' :: Text.quote value ↔ _
    simp only [fragment?, List.mem_append, List.mem_cons, hbad, hsubject, hspace,
      Text.mem_quote_iff hc, Option.mem_some_iff, exists_eq_left', false_or, and_comm]
  | rune subject r =>
    have hsubject := hnot (h.subject subject rfl)
    have hrune : c ∉ " rune ".toList := hnot (Text.isVisible_of_all rfl)
    show c ∈ "bad ".toList ++ subject ++ " rune ".toList ++ Text.quoteRune r ↔ _
    simp only [fragment?, List.mem_append, hbad, hsubject, hrune,
      Text.mem_quoteRune_iff hc, Option.mem_some_iff, exists_eq_left', false_or, and_comm]
  | length subject n allowed limit =>
    have hvisible := isVisible_headline_length (h.subject subject rfl) n allowed limit
    exact iff_of_false (hnot hvisible) (by simp [fragment?])
  | invalid m | emptyLabel m | notReversed m | general m =>
    exact iff_of_false (hnot (h.fixedText m rfl)) (by simp [fragment?])

/-- **Only what is quoted is not visible in a message**, from whichever error of the chain. -/
theorem mem_message_iff (h : ∀ x ∈ e.chain, x.IsPlain) (hc : ¬ IsVisible c) :
    c ∈ e.message ↔ 0x7f ≤ c.toNat ∧ ∃ x ∈ e.chain, ∃ t ∈ x.fragment?, c ∈ t := by
  have hcolon : c ∉ ": ".toList := fun hmem => hc (Text.isVisible_of_all rfl c hmem)
  rw [message_eq_join, Text.mem_join_iff hcolon]
  simp only [List.mem_map, exists_exists_and_eq_and]
  constructor
  · rintro ⟨x, hx, hmem⟩
    obtain ⟨hle, ht⟩ := (mem_headline_iff (h x hx) hc).mp hmem
    exact ⟨hle, x, hx, ht⟩
  · rintro ⟨hle, x, hx, ht⟩
    exact ⟨x, hx, (mem_headline_iff (h x hx) hc).mpr ⟨hle, ht⟩⟩

theorem isPlain_of_subject {subject : Text} (h : ∀ c ∈ subject, IsVisible c)
    (hsubject : e.subject? = some subject) (hfixed : e.fixedText? = none) : e.IsPlain where
  subject := by simpa [hsubject] using h
  fixedText := by simp [hfixed]

theorem isPlain_of_fixedText {m : Text} (h : ∀ c ∈ m, IsVisible c) (hsubject : e.subject? = none)
    (hfixed : e.fixedText? = some m) : e.IsPlain where
  subject := by simp [hsubject]
  fixedText := by simpa [hfixed] using h

end Error

/-- What a label is refused for is told in visible ASCII. -/
theorem Label.isPlain_of_cause? {l : Text} {e : Error} (h : cause? l = some e) : e.IsPlain := by
  have hsubject : ∀ c ∈ Subject.label, IsVisible c := Text.isVisible_of_all rfl
  unfold cause? at h
  split at h
  · obtain rfl := Option.some.inj h
    exact Error.isPlain_of_subject hsubject rfl rfl
  split at h
  · obtain rfl := Option.some.inj h
    exact Error.isPlain_of_fixedText (Text.isVisible_of_all rfl) rfl rfl
  · obtain ⟨c, -, rfl⟩ := Option.map_eq_some_iff.mp h
    exact Error.isPlain_of_subject hsubject rfl rfl

namespace ReverseName

open Error (isPlain_of_subject isPlain_of_fixedText)

variable {name m : Text} {e err : Error} {r : Reason} {c : Char}

theorem FirstFault.isPlain (h : FirstFault m r e) : ∀ x ∈ e.chain, x.IsPlain := by
  cases h with
  | zone | count =>
    exact List.forall_mem_singleton.mpr (isPlain_of_fixedText (Text.isVisible_of_all rfl) rfl rfl)
  | length | digit | octets =>
    exact List.forall_mem_singleton.mpr (isPlain_of_subject (Text.isVisible_of_all rfl) rfl rfl)
  | @label f v l before after cause ends split legal refused =>
    obtain ⟨cause', hc, he⟩ := Label.check_eq_error_iff.mp refused
    obtain ⟨-, -, rfl⟩ := Error.malformedBy.inj he
    rw [Error.chain, (cause?_leaf hc).1]
    exact List.forall_mem_cons.mpr ⟨isPlain_of_subject (Text.isVisible_of_all rfl) rfl rfl,
      List.forall_mem_singleton.mpr (Label.isPlain_of_cause? hc)⟩

/-- **What is not visible in the message stands in the name**, and it is not one of the
control characters that begin ASCII. -/
theorem mem_message_iff (h : decode name = .error err) (hc : ¬ IsVisible c) :
    c ∈ err.message ↔ c ∈ name ∧ 0x7f ≤ c.toNat := by
  obtain ⟨cause, hcause, rfl⟩ := decode_eq_error_iff_decodeName.mp h
  obtain ⟨r, hfault⟩ := decodeName_eq_error_iff.mp hcause
  have hplain : ∀ x ∈ (Error.malformedBy Subject.reverseName name cause).chain, x.IsPlain :=
    List.forall_mem_cons.mpr
      ⟨isPlain_of_subject (Text.isVisible_of_all rfl) rfl rfl, hfault.isPlain⟩
  rw [Error.mem_message_iff hplain hc]
  constructor
  · rintro ⟨hle, x, hx, t, ht, hmem⟩
    refine ⟨?_, hle⟩
    rcases List.mem_cons.mp hx with rfl | hx
    · obtain rfl := Option.some.inj ht
      exact hmem
    · have hinfix := (hfault.isInfix.2 x hx t ht).trans (dropDot_isPrefix name).isInfix
      exact hinfix.subset hmem
  · rintro ⟨hmem, hle⟩
    exact ⟨hle, _, List.mem_cons_self, name, rfl, hmem⟩

end ReverseName

/-! ### Line ends -/

namespace Text

/-- The characters that end a line. -/
def lineEnds : List Char :=
  ['\n', '\u000b', '\u000c', '\r', '\u001c', '\u001d', '\u001e', '\u0085', '\u2028', '\u2029']

/-- The line ends beyond ASCII: next line, line separator, paragraph separator. -/
def wideLineEnds : List Char := ['\u0085', '\u2028', '\u2029']

/-- A text on one line. -/
def IsLine (t : Text) : Prop := ∀ c ∈ t, c ∉ lineEnds

instance (t : Text) : Decidable (IsLine t) := List.decidableBAll _ t

theorem not_isVisible_of_mem_lineEnds : ∀ c ∈ lineEnds, ¬ IsVisible c :=
  List.all_iff_forall_prop.mp rfl

theorem mem_wideLineEnds_iff : ∀ c ∈ lineEnds, (c ∈ wideLineEnds ↔ 0x7f ≤ c.toNat) :=
  List.all_iff_forall_prop.mp rfl

theorem wideLineEnds_subset : ∀ c ∈ wideLineEnds, c ∈ lineEnds :=
  List.all_iff_forall_prop.mp rfl

end Text

namespace ReverseName

open Text (lineEnds wideLineEnds IsLine)

variable {name : Text} {err : Error} {c : Char}

/-- **Just the line ends beyond ASCII get from a name into its message.** -/
theorem mem_message_iff_of_mem_lineEnds (h : decode name = .error err) (hc : c ∈ lineEnds) :
    c ∈ err.message ↔ c ∈ name ∧ c ∈ wideLineEnds := by
  rw [mem_message_iff h (Text.not_isVisible_of_mem_lineEnds c hc), Text.mem_wideLineEnds_iff c hc]

/-- **A message is on one line exactly if the name has no line end beyond ASCII.** Those of
ASCII are escaped wherever the name is quoted. -/
theorem isLine_message_iff (name : Text) (err : Error) (h : decode name = .error err) :
    (∀ c ∈ lineEnds, c ∈ err.message ↔ c ∈ name ∧ c ∈ wideLineEnds) ∧
      (IsLine err.message ↔ ∀ c ∈ name, c ∉ wideLineEnds) := by
  refine ⟨fun c hc => mem_message_iff_of_mem_lineEnds h hc, ?_, ?_⟩
  · intro hline c hc hwide
    have hend := Text.wideLineEnds_subset c hwide
    exact hline c ((mem_message_iff_of_mem_lineEnds h hend).mpr ⟨hc, hwide⟩) hend
  · intro hname c hc hend
    obtain ⟨hmem, hwide⟩ := (mem_message_iff_of_mem_lineEnds h hend).mp hc
    exact hname c hmem hwide

/-- A name with a line end of ASCII and one beyond it. -/
theorem isLine_message_iff_mixed :
    let name := "1\n\u2028".toList
    let err := Error.malformedBy Subject.reverseName name (.notReversed Error.notReversedText)
    decode name = .error err ∧ '\n' ∉ err.message ∧ '\u2028' ∈ err.message ∧
      ¬ IsLine err.message := by
  intro name err
  have h : decode name = .error err := by decide
  obtain ⟨hends, hline⟩ := isLine_message_iff name err h
  refine ⟨h, ?_, (hends _ (by decide)).mpr (by decide), ?_⟩
  · rw [hends _ (by decide)]
    decide
  · rw [hline]
    exact fun hname => hname '\u2028' (by decide) (by decide)

/-- The message of a name that is one line end. -/
theorem not_isLine_message_next_line :
    ¬ ∀ name err, decode name = .error err → IsLine err.message := by
  intro h
  exact absurd (h ['\u0085'] _ rfl) (by decide)

end ReverseName
end ReverseDns
