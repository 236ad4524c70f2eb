/-
# The characters of a written value

Words, numbers and quoted strings are printable ASCII, and a layout adds white space
of its own, so a property that printable characters and this white space have is one
of every character that is written (`forall_mem_laid`). A value on one line is
printable ASCII without any line end (`isVisible_compact`); one over several lines has
line ends besides (`isPrinted_pretty`). Here doubles make no exception.

Key definition: `Json.Layout.All`.
Key theorems: `Json.isVisible_number`, `Json.forall_mem_laid`, `Json.isVisible_compact`,
`Json.isPrinted_pretty`.
-/
import ReverseDns.Proofs.Json.Layout

namespace ReverseDns
namespace Json

open Text (IsVisible)

/-! ### Words and numbers -/

variable {ds : Text}

/-- Digits are placed with a point, an exponent or zeros among them. -/
theorem isVisible_place (h : ∀ c ∈ ds, IsVisible c) (power : Int) :
    ∀ c ∈ place ds power, IsVisible c := by
  have htake : ∀ n, ∀ c ∈ ds.take n, IsVisible c := fun n c hc => h c (List.mem_of_mem_take hc)
  have hdrop : ∀ n, ∀ c ∈ ds.drop n, IsVisible c := fun n c hc => h c (List.mem_of_mem_drop hc)
  have hzeros : ∀ n, ∀ c ∈ List.replicate n '0', IsVisible c := fun n c hc => by
    rw [List.eq_of_mem_replicate hc]
    decide
  have hdigits : ∀ n, ∀ c ∈ Nat.toDigits 10 n, IsVisible c := fun n c hc =>
    Text.isVisible_of_isDigit (Text.isDigit_of_mem_toDigits hc)
  have hpoint : IsVisible '.' := by decide
  unfold place
  simp only
  split
  · have hsign : IsVisible (if power < 0 then '-' else '+') := by split <;> decide
    have hletter : IsVisible 'e' := by decide
    have hplaces : ∀ c ∈ (if ds.length ≤ 1 then [] else '.' :: ds.drop 1), IsVisible c := by
      split
      · simp
      · exact List.forall_mem_cons.mpr ⟨hpoint, hdrop 1⟩
    simp only [List.forall_mem_append, List.forall_mem_cons]
    exact ⟨⟨htake 1, hplaces⟩, hletter, hsign, hzeros _, hdigits _⟩
  · split
    · simp only [List.forall_mem_append]
      exact ⟨⟨Text.isVisible_of_all (by decide), hzeros _⟩, h⟩
    · have hplaces : ∀ n, ∀ c ∈ (if ds.length ≤ n then ['0'] else ds.drop n), IsVisible c := by
        intro n
        split
        · exact Text.isVisible_of_all (by decide)
        · exact hdrop n
      simp only [List.forall_mem_append, List.forall_mem_cons]
      exact ⟨⟨htake _, hzeros _⟩, hpoint, hplaces _⟩

theorem isVisible_digits (m : Nat) (e : Int) : ∀ c ∈ (Binary64.digits m e).1, IsVisible c := by
  intro c hc
  unfold Binary64.digits at hc
  simp only [List.mem_reverse] at hc
  have hmem := List.mem_reverse.mp (List.dropWhile_subset _ hc)
  exact Text.isVisible_of_isDigit (Text.isDigit_of_mem_toDigits hmem)

/-- **A double is printable ASCII.** -/
theorem isVisible_number (x : Binary64) : ∀ c ∈ number x, IsVisible c := by
  cases x with
  | finite negative m e =>
    have hsign : ∀ c ∈ (if negative then ['-'] else []), IsVisible c := by
      cases negative <;> exact Text.isVisible_of_all (by decide)
    unfold number
    simp only
    split
    · exact List.forall_mem_append.mpr ⟨hsign, Text.isVisible_of_all (by decide)⟩
    · exact List.forall_mem_append.mpr ⟨hsign, isVisible_place (isVisible_digits m e) _⟩
  | infinite negative => cases negative <;> exact Text.isVisible_of_all (by decide)
  | nan => exact Text.isVisible_of_all (by decide)

theorem isVisible_scalar (v : Value) : ∀ c ∈ v.scalar, IsVisible c := by
  cases v with
  | null => exact Text.isVisible_of_all (by decide)
  | bool b => cases b <;> exact Text.isVisible_of_all (by decide)
  | int n => exact Text.isVisible_decimal n
  | float x => exact isVisible_number x
  | str t => exact isVisible_quoted t
  | arr vs => exact Text.isVisible_of_all (t := ['[', ']']) (by decide)
  | obj ms => exact Text.isVisible_of_all (t := ['\x7b', '\x7d']) (by decide)

/-! ### Values in a layout -/

/-- A layout whose white space has a property. -/
structure Layout.All (P : Char → Prop) (l : Layout) : Prop where
  opening : ∀ n, ∀ c ∈ l.opening n, P c
  between : ∀ n, ∀ c ∈ l.between n, P c
  closing : ∀ n, ∀ c ∈ l.closing n, P c

section

variable {P : Char → Prop} {l : Layout} (hvisible : ∀ c, IsVisible c → P c) (hl : l.All P)

include hvisible in
theorem forall_mem_quoted (t : Text) : ∀ c ∈ quoted t, P c :=
  fun c hc => hvisible c (isVisible_quoted t c hc)

include hvisible hl

mutual

/-- **Every character is printable ASCII or white space of the layout.** -/
theorem forall_mem_laid : ∀ (v : Value) (n : Nat), ∀ c ∈ laid l n v, P c
  | .arr (v :: vs), n => by
    rw [laid]
    simp only [List.forall_mem_cons, List.forall_mem_append]
    exact ⟨hvisible _ (by decide), hl.opening n, forall_mem_laid v (n + 2), forall_mem_laidItems vs n⟩
  | .obj ((name, v) :: ms), n => by
    rw [laid]
    simp only [List.forall_mem_cons, List.forall_mem_append]
    exact ⟨hvisible _ (by decide), hl.opening n, forall_mem_quoted hvisible name,
      hvisible _ (by decide), hvisible _ (by decide), forall_mem_laid v (n + 2),
      forall_mem_laidMembers ms n⟩
  | .arr [], _ | .obj [], _ | .null, _ | .bool _, _ | .int _, _ | .float _, _ | .str _, _ =>
    fun c hc => hvisible c (isVisible_scalar _ c hc)

theorem forall_mem_laidItems : ∀ (vs : List Value) (n : Nat), ∀ c ∈ laidItems l n vs, P c
  | [], n => by
    rw [laidItems]
    simp only [List.forall_mem_append]
    exact ⟨hl.closing n, by simpa using hvisible _ (by decide)⟩
  | v :: vs, n => by
    rw [laidItems]
    simp only [List.forall_mem_cons, List.forall_mem_append]
    exact ⟨hvisible _ (by decide), hl.between n, forall_mem_laid v (n + 2), forall_mem_laidItems vs n⟩

theorem forall_mem_laidMembers : ∀ (ms : Members) (n : Nat), ∀ c ∈ laidMembers l n ms, P c
  | [], n => by
    rw [laidMembers]
    simp only [List.forall_mem_append]
    exact ⟨hl.closing n, by simpa using hvisible _ (by decide)⟩
  | (name, v) :: ms, n => by
    rw [laidMembers]
    simp only [List.forall_mem_cons, List.forall_mem_append]
    exact ⟨hvisible _ (by decide), hl.between n, forall_mem_quoted hvisible name,
      hvisible _ (by decide), hvisible _ (by decide), forall_mem_laid v (n + 2),
      forall_mem_laidMembers ms n⟩

end

end

theorem isPrinted_newline (n : Nat) : Text.IsPrinted (Value.newline n) := by
  intro c hc
  rcases List.mem_cons.mp hc with rfl | hc
  · exact .inl rfl
  · rw [List.eq_of_mem_replicate hc]
    exact .inr (by decide)

/-- **The lines of a value are printed.** -/
theorem isPrinted_pretty (v : Value) (n : Nat) : Text.IsPrinted (v.pretty n) := by
  have hlines : Layout.lines.All fun c => c = '\n' ∨ IsVisible c :=
    ⟨fun n => isPrinted_newline (n + 2), fun n => isPrinted_newline (n + 2), isPrinted_newline⟩
  rw [← laid_lines]
  exact forall_mem_laid (fun _ => .inr) hlines v n

/-- **A value on one line has no line end**, nor anything else but printable ASCII. -/
theorem isVisible_compact (v : Value) : ∀ c ∈ v.compact, IsVisible c := by
  have hspace : ∀ c ∈ [' '], IsVisible c := Text.isVisible_of_all (by decide)
  have honeLine : Layout.oneLine.All IsVisible :=
    ⟨fun _ => by simp [Layout.oneLine], fun _ => hspace, fun _ => by simp [Layout.oneLine]⟩
  rw [← laid_oneLine v 0]
  exact forall_mem_laid (fun _ => id) honeLine v 0

end Json
end ReverseDns
