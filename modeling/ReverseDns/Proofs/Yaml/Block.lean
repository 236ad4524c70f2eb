/-
# The lines of a value tell the value

What follows a key or a dash shows whether it is a value without parts, a list or an
object: a list below a key begins in the column of the key with a dash, an object
begins two columns further with a name, and on the line of a dash a name goes on with a
colon and a blank, an item with a blank, and a value without parts with neither. The
lines of the parts end where a line is indented less, so the lines of a value tell the
value and what follows it, at any depth that leaves room on a line.

Key definitions: `Yaml.IsName`, `Yaml.Fits`, `Yaml.Ends`, `Yaml.Shape`.
Key theorems: `Yaml.keyOpens`, `Yaml.dashOpens`, `Yaml.valueTells`, `Yaml.document_inj`.
-/
import ReverseDns.Proofs.Yaml.Scalar

namespace ReverseDns
namespace Yaml

open Json (Members Value)

variable {b c : Char} {n m column column' : Nat} {r r' s t x name : Text} {v w : Value}
  {vs ws : List Value} {ms : Members}

/-! ### Names and values -/

/-- A name that needs no quotes. -/
def IsName (t : Text) : Prop := t ≠ [] ∧ ∀ c ∈ t, c = '_' ∨ ('a' ≤ c ∧ c ≤ 'z')

instance (t : Text) : Decidable (IsName t) :=
  @instDecidableAnd _ _ inferInstance (List.decidableBAll _ t)

theorem IsName.ne (h : IsName name) (hc : c ∈ name) :
    c ≠ ' ' ∧ c ≠ '\n' ∧ c ≠ ':' ∧ c ≠ '-' ∧ c ≠ '\'' ∧ c ≠ '"' := by
  refine ⟨?_, ?_, ?_, ?_, ?_, ?_⟩ <;> rintro rfl <;> exact absurd (h.2 _ hc) (by decide)

theorem IsName.exists_cons (h : IsName name) : ∃ c s, name = c :: s ∧
    c ≠ ' ' ∧ c ≠ '\n' ∧ c ≠ '-' ∧ c ≠ '\'' ∧ c ≠ '"' := by
  cases name with
  | nil => exact absurd rfl h.1
  | cons c s =>
    obtain ⟨hspace, hline, -, hdash, hsingle, hdouble⟩ := h.ne List.mem_cons_self
    exact ⟨c, s, rfl, hspace, hline, hdash, hsingle, hdouble⟩

/-- A value without doubles, with plain names, that is nowhere indented up to the column
past which a line is broken, if it stands in a list or an object indented by `n`. -/
inductive Fits : Nat → Value → Prop
  | leaf {n : Nat} {v : Value} (h : Leaf v) (room : n + 2 < width) : Fits n v
  | arr {n : Nat} {vs : List Value} (room : n + 2 < width) (items : ∀ v ∈ vs, Fits (n + 2) v) :
    Fits n (.arr vs)
  | obj {n : Nat} {ms : Members} (room : n + 2 < width) (names : ∀ m ∈ ms, IsName m.1)
    (values : ∀ m ∈ ms, Fits (n + 2) m.2) : Fits n (.obj ms)

/-- Members with plain names and values that fit. -/
abbrev FitMembers (n : Nat) (ms : Members) : Prop := ∀ m ∈ ms, IsName m.1 ∧ Fits n m.2

theorem Fits.room (h : Fits n v) : n + 2 < width := by
  cases h with
  | leaf _ room | arr room | obj room => exact room

/-- Less indentation leaves more room. -/
theorem Fits.mono (h : Fits n v) : ∀ {m}, m ≤ n → Fits m v := by
  induction h with
  | leaf h room => exact fun hm => .leaf h (by omega)
  | arr room _ ih => exact fun hm => .arr (by omega) fun v hv => ih v hv (by omega)
  | obj room names _ ih => exact fun hm => .obj (by omega) names fun m hmem => ih m hmem (by omega)

theorem Fits.items (h : Fits n (.arr vs)) : ∀ v ∈ vs, Fits (n + 2) v := by
  cases h with
  | arr _ items => exact items
  | leaf h _ =>
    cases h with
    | word h =>
      cases h
      simp

theorem Fits.members (h : Fits n (.obj ms)) : FitMembers (n + 2) ms := by
  cases h with
  | obj _ names values => exact fun m hm => ⟨names m hm, values m hm⟩
  | leaf h _ =>
    cases h with
    | word h =>
      cases h
      simp

/-! ### Where lines end -/

/-- A text that is at its end, or goes on with a line indented by less than `n`, or with
one indented by `n` that begins with no dash. -/
def Ends (n : Nat) (r : Text) : Prop :=
  Dedented n r ∨ ∃ c s, c ≠ ' ' ∧ c ≠ '\n' ∧ c ≠ '-' ∧ r = spaces n ++ c :: s

theorem Ends.dedented (h : Ends n r) (hnm : n < m) : Dedented m r := by
  rcases h with h | ⟨c, s, hspace, hline, -, rfl⟩
  · exact h.mono (by omega)
  · exact .inr ⟨n, c, s, hnm, hspace, hline, rfl⟩

theorem Dedented.ne (h : Dedented n r) (hc : c ≠ ' ') (s : Text) : r ≠ spaces n ++ c :: s := by
  rintro rfl
  rcases h with h | ⟨k, d, t, hk, hd, -, h⟩
  · simp at h
  · obtain ⟨hnk, -⟩ := spaces_append_inj hc hd h
    omega

theorem Ends.ne (h : Ends n r) (s : Text) : r ≠ spaces n ++ '-' :: s := by
  rcases h with h | ⟨d, t, hspace, -, hdash, rfl⟩
  · exact h.ne (by decide) s
  · intro heq
    exact hdash (spaces_append_inj hspace (by decide) heq).2.1

theorem members_append (n : Nat) (name : Text) (v : Value) (ms : Members) (r : Text) :
    members n ((name, v) :: ms) ++ r =
      spaces n ++ (name ++ ':' :: (afterKey n (n + name.length + 1) v ++ (members n ms ++ r))) := by
  rw [members]
  simp only [List.append_assoc, List.cons_append]

theorem items_append (n : Nat) (v : Value) (vs : List Value) (r : Text) :
    items n (v :: vs) ++ r = spaces n ++ '-' :: (afterDash n v ++ (items n vs ++ r)) := by
  rw [items]
  simp only [List.append_assoc, List.cons_append]

theorem ends_members (hms : FitMembers n ms) (hr : Dedented n r) : Ends n (members n ms ++ r) := by
  cases ms with
  | nil => exact .inl hr
  | cons m ms =>
    obtain ⟨name, v⟩ := m
    obtain ⟨c, s, hname, hspace, hline, hdash, -⟩ := (hms _ List.mem_cons_self).1.exists_cons
    simp only at hname
    rw [members_append, hname, List.cons_append]
    exact .inr ⟨c, _, hspace, hline, hdash, rfl⟩

theorem dedented_items (vs : List Value) (hr : Ends n r) : Dedented (n + 1) (items n vs ++ r) := by
  cases vs with
  | nil => exact hr.dedented (by omega)
  | cons v vs =>
    rw [items_append]
    exact .inr ⟨n, '-', _, by omega, by decide, by decide, rfl⟩

/-! ### Shapes -/

/-- What a value shows of itself. -/
inductive Shape
  | leaf
  | list
  | object
deriving DecidableEq

def shape : Value → Shape
  | .arr (_ :: _) => .list
  | .obj (_ :: _) => .object
  | _ => .leaf

theorem shape_leaf (h : Leaf v) : shape v = .leaf := by
  cases h with
  | str t => rfl
  | word h => cases h <;> rfl

theorem Fits.leaf_or (h : Fits n v) :
    Leaf v ∨ (∃ w ws, v = .arr (w :: ws)) ∨ ∃ name w ms, v = .obj ((name, w) :: ms) := by
  cases h with
  | leaf h => exact .inl h
  | @arr _ vs =>
    cases vs with
    | nil => exact .inl (.word .arr)
    | cons w ws => exact .inr (.inl ⟨w, ws, rfl⟩)
  | @obj _ ms =>
    cases ms with
    | nil => exact .inl (.word .obj)
    | cons m ms => exact .inr (.inr ⟨m.1, m.2, ms, rfl⟩)

theorem afterKey_eq_scalar (h : Leaf v) (n column : Nat) :
    afterKey n column v = scalar (n + 2) column v ++ ['\n'] := by
  cases h with
  | str t => rfl
  | word h => cases h <;> rfl

theorem afterKey_leaf (h : Leaf v) : afterKey n column v =
    ' ' :: ((form v).written (n + 2) (column + 1) ++ ['\n']) := by
  rw [afterKey_eq_scalar h, scalar_eq h, List.cons_append]

theorem afterKey_arr (n column : Nat) (v : Value) (vs : List Value) :
    afterKey n column (.arr (v :: vs)) = '\n' :: items n (v :: vs) := by
  rw [afterKey]

theorem afterKey_obj (n column : Nat) (m : Text × Value) (ms : Members) :
    afterKey n column (.obj (m :: ms)) = '\n' :: members (n + 2) (m :: ms) := by
  rw [afterKey]

theorem afterDash_eq_scalar (h : Leaf v) (n : Nat) :
    afterDash n v = scalar (n + 2) (n + 1) v ++ ['\n'] := by
  cases h with
  | str t => rfl
  | word h => cases h <;> rfl

theorem afterDash_leaf (h : Leaf v) : afterDash n v =
    ' ' :: ((form v).written (n + 2) (n + 2) ++ ['\n']) := by
  rw [afterDash_eq_scalar h, scalar_eq h, List.cons_append]

theorem spaces_succ_append (n : Nat) (x : Text) : spaces n ++ ' ' :: x = spaces (n + 1) ++ x := by
  have hlast : spaces (n + 1) = spaces n ++ [' '] := List.replicate_succ'
  rw [hlast, List.append_assoc, List.singleton_append]

/-- A list on the line of a dash, with the indentation it would have on its own line. -/
theorem afterDash_arr (n : Nat) (v : Value) (vs : List Value) :
    spaces (n + 1) ++ afterDash n (.arr (v :: vs)) = items (n + 2) (v :: vs) := by
  rw [afterDash, items, spaces_succ_append]

/-- An object on the line of a dash, with the indentation it would have on its own line. -/
theorem afterDash_obj (n : Nat) (name : Text) (v : Value) (ms : Members) :
    spaces (n + 1) ++ afterDash n (.obj ((name, v) :: ms)) = members (n + 2) ((name, v) :: ms) := by
  rw [afterDash, members, spaces_succ_append]

theorem exists_afterDash (h : Fits n v) : ∃ x, afterDash n v = ' ' :: x := by
  rcases h.leaf_or with h | ⟨w, ws, rfl⟩ | ⟨name, w, ms, rfl⟩
  · exact ⟨_, afterDash_leaf h⟩
  · rw [afterDash]
    exact ⟨_, rfl⟩
  · rw [afterDash]
    exact ⟨_, rfl⟩

theorem exists_afterKey (h : Fits n v) (column : Nat) :
    ∃ b x, (b = ' ' ∨ b = '\n') ∧ afterKey n column v = b :: x := by
  rcases h.leaf_or with h | ⟨w, ws, rfl⟩ | ⟨name, w, ms, rfl⟩
  · exact ⟨_, _, .inl rfl, afterKey_leaf h⟩
  · exact ⟨_, _, .inr rfl, afterKey_arr n column w ws⟩
  · exact ⟨_, _, .inr rfl, afterKey_obj n column (name, w) ms⟩

/-- How a text goes on after a key, in an object indented by `n`. -/
inductive KeyOpens (n : Nat) : Shape → Text → Prop
  | leaf (x : Text) : KeyOpens n .leaf (' ' :: x)
  | list (x : Text) : KeyOpens n .list ('\n' :: (spaces n ++ '-' :: x))
  | object {c : Char} (x : Text) (hc : c ≠ ' ') :
    KeyOpens n .object ('\n' :: (spaces (n + 2) ++ c :: x))

theorem keyOpens (h : Fits n v) (column : Nat) (r : Text) :
    KeyOpens n (shape v) (afterKey n column v ++ r) := by
  rcases h.leaf_or with hleaf | ⟨w, ws, rfl⟩ | ⟨name, w, ms, rfl⟩
  · rw [shape_leaf hleaf, afterKey_leaf hleaf]
    exact .leaf _
  · rw [afterKey_arr, List.cons_append, items_append]
    exact .list _
  · obtain ⟨c, s, rfl, hc, -⟩ := (h.members _ List.mem_cons_self).1.exists_cons
    rw [afterKey_obj, List.cons_append, members_append]
    exact .object _ hc

/-- What follows a key shows one shape only. -/
theorem KeyOpens.unique {i j : Shape} (h : KeyOpens n i t) (h' : KeyOpens n j t) : i = j := by
  generalize ht : t = t' at h'
  cases h with
  | leaf x =>
    cases h' with
    | leaf => rfl
    | list | object => exact absurd (List.cons.inj ht).1 (by decide)
  | list x =>
    cases h' with
    | leaf => exact absurd (List.cons.inj ht).1 (by decide)
    | list => rfl
    | object y hc =>
      have hcolumn := (spaces_append_inj (by decide) hc (List.cons.inj ht).2).1
      omega
  | object x hc =>
    cases h' with
    | leaf => exact absurd (List.cons.inj ht).1 (by decide)
    | list y =>
      have hcolumn := (spaces_append_inj hc (by decide) (List.cons.inj ht).2).1
      omega
    | object => rfl

/-- How a text goes on after a dash. -/
inductive DashOpens : Shape → Text → Prop
  | leaf {f : Form} {indent : Nat} {r : Text} (column : Nat) (hf : f.IsFit) (hindent : 0 < indent)
    (hr : Dedented indent r) : DashOpens .leaf (' ' :: (f.written indent column ++ '\n' :: r))
  | list (x : Text) : DashOpens .list (' ' :: '-' :: ' ' :: x)
  | object {name : Text} {b : Char} (x : Text) (hname : IsName name) (hb : b = ' ' ∨ b = '\n') :
    DashOpens .object (' ' :: (name ++ ':' :: b :: x))

theorem dashOpens (h : Fits n v) (hr : Dedented (n + 2) r) :
    DashOpens (shape v) (afterDash n v ++ r) := by
  rcases h.leaf_or with hleaf | ⟨w, ws, rfl⟩ | ⟨name, w, ms, rfl⟩
  · rw [shape_leaf hleaf, afterDash_leaf hleaf, List.cons_append, List.append_assoc]
    exact .leaf _ (isFit_form hleaf) (by omega) hr
  · obtain ⟨x, hx⟩ := exists_afterDash (h.items _ List.mem_cons_self)
    rw [afterDash, hx]
    exact .list _
  · obtain ⟨hname, hw⟩ := h.members _ List.mem_cons_self
    obtain ⟨b, x, hb, hx⟩ := exists_afterKey hw (n + 2 + name.length + 1)
    rw [afterDash, hx]
    simp only [List.cons_append, List.append_assoc]
    exact .object _ hname hb

/-- A value without parts does not begin like an item. -/
theorem written_ne_item {f : Form} {indent : Nat} (hf : f.IsFit) (hindent : 0 < indent)
    (hr : Dedented indent r) (x : Text) :
    f.written indent column ++ '\n' :: r ≠ '-' :: ' ' :: x := by
  intro h
  obtain ⟨s, rfl, hs⟩ := Form.bare_of_written (p := ['-']) hindent hf hr
    ⟨'-', [], rfl, by decide, by decide⟩ (by decide) (.inl rfl) h
  exact absurd hs (by simp [hf.dash s rfl])

/-- A value without parts does not begin like a member. -/
theorem written_ne_member {f : Form} {indent : Nat} (hf : f.IsFit) (hindent : 0 < indent)
    (hr : Dedented indent r) (hname : IsName name) (hb : b = ' ' ∨ b = '\n') (x : Text) :
    f.written indent column ++ '\n' :: r ≠ name ++ ':' :: b :: x := by
  intro h
  have hline : '\n' ∉ name ++ [':'] := by
    simp only [List.mem_append, List.mem_singleton, not_or]
    exact ⟨fun hmem => (hname.ne hmem).2.1 rfl, by decide⟩
  obtain ⟨c, q, hc, -, -, -, hsingle, hdouble⟩ := hname.exists_cons
  obtain ⟨s, rfl, hs⟩ := Form.bare_of_written (p := name ++ [':']) (b := b) (x := x) hindent hf hr
    ⟨c, q ++ [':'], by rw [hc, List.cons_append], hsingle, hdouble⟩ hline hb
    (by rw [h, List.append_assoc, List.singleton_append])
  exact absurd hs (by simp [hf.colon name s (by rw [List.append_assoc, List.singleton_append])])

/-- What follows a dash shows one shape only. -/
theorem DashOpens.unique {i j : Shape} (h : DashOpens i t) (h' : DashOpens j t) : i = j := by
  have hmember : ∀ {name : Text} {b : Char} {x y : Text}, IsName name →
      '-' :: ' ' :: y ≠ name ++ ':' :: b :: x := by
    intro name b x y hname heq
    obtain ⟨c, q, rfl, -, -, hdash, -⟩ := hname.exists_cons
    exact hdash (List.cons.inj heq).1.symm
  generalize ht : t = t' at h'
  cases h with
  | leaf column hf hindent hr =>
    cases h' with
    | leaf => rfl
    | list x => exact absurd (List.cons.inj ht).2 (written_ne_item hf hindent hr x)
    | object x hname hb =>
      exact absurd (List.cons.inj ht).2 (written_ne_member hf hindent hr hname hb x)
  | list x =>
    cases h' with
    | leaf column hf hindent hr =>
      exact absurd (List.cons.inj ht).2.symm (written_ne_item hf hindent hr x)
    | list => rfl
    | object y hname => exact absurd (List.cons.inj ht).2 (hmember hname)
  | object x hname hb =>
    cases h' with
    | leaf column hf hindent hr =>
      exact absurd (List.cons.inj ht).2.symm (written_ne_member hf hindent hr hname hb x)
    | list => exact absurd (List.cons.inj ht).2.symm (hmember hname)
    | object => rfl

/-! ### Lines tell values

What follows a key, what follows a dash, the lines of a list and the lines of an object
each tell what they are the text of. One lemma for each way to build a value, and then
the induction over values. -/

/-- What follows a key tells the value `v` from all others. -/
def KeyTells (v : Value) : Prop := ∀ {w : Value} {n column column' : Nat} {r r' : Text},
  Fits n v → Fits n w → Ends n r → Ends n r' →
  afterKey n column v ++ r = afterKey n column' w ++ r' → v = w ∧ r = r'

/-- What follows a dash tells the value `v` from all others. -/
def DashTells (v : Value) : Prop := ∀ {w : Value} {n : Nat} {r r' : Text},
  Fits n v → Fits n w → Dedented (n + 1) r → Dedented (n + 1) r' →
  afterDash n v ++ r = afterDash n w ++ r' → v = w ∧ r = r'

/-- The lines of a list tell its items from all others. -/
def ItemsTell (vs : List Value) : Prop := ∀ {ws : List Value} {n : Nat} {r r' : Text},
  (∀ v ∈ vs, Fits n v) → (∀ w ∈ ws, Fits n w) → Ends n r → Ends n r' →
  items n vs ++ r = items n ws ++ r' → vs = ws ∧ r = r'

/-- The lines of an object tell its members from all others. -/
def MembersTell (ms : Members) : Prop := ∀ {ns : Members} {n : Nat} {r r' : Text},
  FitMembers n ms → FitMembers n ns → Dedented n r → Dedented n r' →
  members n ms ++ r = members n ns ++ r' → ms = ns ∧ r = r'

theorem leaf_of_shape (h : Fits n v) (hshape : shape v = .leaf) : Leaf v := by
  rcases h.leaf_or with h | ⟨w, ws, rfl⟩ | ⟨name, w, ms, rfl⟩
  · exact h
  · cases hshape
  · cases hshape

theorem exists_of_shape_list (hshape : shape v = .list) : ∃ w ws, v = .arr (w :: ws) := by
  unfold shape at hshape
  split at hshape
  · exact ⟨_, _, rfl⟩
  · cases hshape
  · cases hshape

theorem exists_of_shape_object (hshape : shape v = .object) :
    ∃ name w ms, v = .obj ((name, w) :: ms) := by
  unfold shape at hshape
  split at hshape
  · cases hshape
  · exact ⟨_, _, _, rfl⟩
  · cases hshape

theorem shape_eq_of_afterKey (hv : Fits n v) (hw : Fits n w)
    (h : afterKey n column v ++ r = afterKey n column' w ++ r') : shape w = shape v := by
  have hopens := keyOpens hw column' r'
  rw [← h] at hopens
  exact hopens.unique (keyOpens hv column r)

theorem shape_eq_of_afterDash (hv : Fits n v) (hw : Fits n w) (hr : Dedented (n + 1) r)
    (hr' : Dedented (n + 1) r') (h : afterDash n v ++ r = afterDash n w ++ r') :
    shape w = shape v := by
  have hopens := dashOpens hw (hr'.mono (Nat.le_succ _))
  rw [← h] at hopens
  exact hopens.unique (dashOpens hv (hr.mono (Nat.le_succ _)))

theorem keyTells_leaf (hshape : shape v = .leaf) : KeyTells v := by
  intro w n column column' r r' hv hw hr hr' h
  have hleaf := leaf_of_shape hv hshape
  have hleaf' := leaf_of_shape hw ((shape_eq_of_afterKey hv hw h).trans hshape)
  rw [afterKey_leaf hleaf, afterKey_leaf hleaf'] at h
  simp only [List.cons_append, List.append_assoc, List.nil_append] at h
  obtain ⟨hform, hrest⟩ := Form.written_inj (by omega) hv.room (isFit_form hleaf)
    (isFit_form hleaf') (hr.dedented (by omega)) (hr'.dedented (by omega)) (List.cons.inj h).2
  exact ⟨form_inj hleaf hleaf' hform, hrest⟩

theorem keyTells_arr (hitems : ItemsTell (v :: vs)) : KeyTells (.arr (v :: vs)) := by
  intro w n column column' r r' hv hw hr hr' h
  obtain ⟨w, ws, rfl⟩ := exists_of_shape_list (shape_eq_of_afterKey hv hw h)
  rw [afterKey_arr, afterKey_arr, List.cons_append, List.cons_append] at h
  obtain ⟨hvs, hrest⟩ := hitems (fun x hx => (hv.items x hx).mono (by omega))
    (fun x hx => (hw.items x hx).mono (by omega)) hr hr' (List.cons.inj h).2
  exact ⟨congrArg Value.arr hvs, hrest⟩

theorem keyTells_obj (hmembers : MembersTell ((name, v) :: ms)) :
    KeyTells (.obj ((name, v) :: ms)) := by
  intro w n column column' r r' hv hw hr hr' h
  obtain ⟨name', w, ns, rfl⟩ := exists_of_shape_object (shape_eq_of_afterKey hv hw h)
  rw [afterKey_obj, afterKey_obj, List.cons_append, List.cons_append] at h
  obtain ⟨hms, hrest⟩ := hmembers hv.members hw.members (hr.dedented (by omega))
    (hr'.dedented (by omega)) (List.cons.inj h).2
  exact ⟨congrArg Value.obj hms, hrest⟩

theorem dashTells_leaf (hshape : shape v = .leaf) : DashTells v := by
  intro w n r r' hv hw hr hr' h
  have hleaf := leaf_of_shape hv hshape
  have hleaf' := leaf_of_shape hw ((shape_eq_of_afterDash hv hw hr hr' h).trans hshape)
  rw [afterDash_leaf hleaf, afterDash_leaf hleaf'] at h
  simp only [List.cons_append, List.append_assoc, List.nil_append] at h
  obtain ⟨hform, hrest⟩ := Form.written_inj (by omega) hv.room (isFit_form hleaf)
    (isFit_form hleaf') (hr.mono (by omega)) (hr'.mono (by omega)) (List.cons.inj h).2
  exact ⟨form_inj hleaf hleaf' hform, hrest⟩

theorem dashTells_arr (hitems : ItemsTell (v :: vs)) : DashTells (.arr (v :: vs)) := by
  intro w n r r' hv hw hr hr' h
  obtain ⟨w, ws, rfl⟩ := exists_of_shape_list (shape_eq_of_afterDash hv hw hr hr' h)
  have hlines := congrArg (spaces (n + 1) ++ ·) h
  simp only [← List.append_assoc, afterDash_arr] at hlines
  obtain ⟨hvs, hrest⟩ := hitems hv.items hw.items (.inl (hr.mono (by omega)))
    (.inl (hr'.mono (by omega))) hlines
  exact ⟨congrArg Value.arr hvs, hrest⟩

theorem dashTells_obj (hmembers : MembersTell ((name, v) :: ms)) :
    DashTells (.obj ((name, v) :: ms)) := by
  intro w n r r' hv hw hr hr' h
  obtain ⟨name', w, ns, rfl⟩ := exists_of_shape_object (shape_eq_of_afterDash hv hw hr hr' h)
  have hlines := congrArg (spaces (n + 1) ++ ·) h
  simp only [← List.append_assoc, afterDash_obj] at hlines
  obtain ⟨hms, hrest⟩ := hmembers hv.members hw.members (hr.mono (by omega))
    (hr'.mono (by omega)) hlines
  exact ⟨congrArg Value.obj hms, hrest⟩

theorem itemsTell_nil : ItemsTell [] := by
  intro ws n r r' _ _ hr _ h
  cases ws with
  | nil => exact ⟨rfl, h⟩
  | cons w ws =>
    rw [items_append] at h
    exact absurd h (hr.ne _)

theorem itemsTell_cons (hv : DashTells v) (hvs : ItemsTell vs) : ItemsTell (v :: vs) := by
  intro ws n r r' hfit hfit' hr hr' h
  cases ws with
  | nil =>
    rw [items_append] at h
    exact absurd h.symm (hr'.ne _)
  | cons w ws =>
    obtain ⟨hfirst, hothers⟩ := List.forall_mem_cons.mp hfit
    obtain ⟨hfirst', hothers'⟩ := List.forall_mem_cons.mp hfit'
    rw [items_append, items_append, List.append_cancel_left_eq] at h
    obtain ⟨rfl, hrest⟩ := hv hfirst hfirst' (dedented_items vs hr) (dedented_items ws hr')
      (List.cons.inj h).2
    obtain ⟨rfl, hend⟩ := hvs hothers hothers' hr hr' hrest
    exact ⟨rfl, hend⟩

theorem members_ne (hms : FitMembers n ms) (hne : ms ≠ []) (hr : Dedented n r) (r' : Text) :
    members n ms ++ r' ≠ r := by
  cases ms with
  | nil => exact absurd rfl hne
  | cons m ms =>
    obtain ⟨name, v⟩ := m
    obtain ⟨c, s, hname, hspace, -⟩ := (hms _ List.mem_cons_self).1.exists_cons
    simp only at hname
    rw [members_append, hname, List.cons_append]
    exact fun h => hr.ne hspace _ h.symm

theorem membersTell_nil : MembersTell [] := by
  intro ns n r r' _ hfit hr _ h
  cases ns with
  | nil => exact ⟨rfl, h⟩
  | cons m ns => exact absurd h.symm (members_ne hfit (by simp) hr r')

theorem membersTell_cons (hv : KeyTells v) (hms : MembersTell ms) :
    MembersTell ((name, v) :: ms) := by
  intro ns n r r' hfit hfit' hr hr' h
  cases ns with
  | nil => exact absurd h (members_ne hfit (by simp) hr' r)
  | cons m ns =>
    obtain ⟨name', w⟩ := m
    obtain ⟨⟨hname, hfirst⟩, hothers⟩ := List.forall_mem_cons.mp hfit
    obtain ⟨⟨hname', hfirst'⟩, hothers'⟩ := List.forall_mem_cons.mp hfit'
    have hcolon : ∀ {t : Text}, IsName t → ':' ∉ t := fun ht hc => (ht.ne hc).2.2.1 rfl
    rw [members_append, members_append, List.append_cancel_left_eq] at h
    obtain ⟨rfl, hvalue⟩ := Text.append_cons_inj (hcolon hname) (hcolon hname') h
    obtain ⟨rfl, hrest⟩ := hv hfirst hfirst' (ends_members hothers hr) (ends_members hothers' hr')
      hvalue
    obtain ⟨rfl, hend⟩ := hms hothers hothers' hr hr' hrest
    exact ⟨rfl, hend⟩

mutual

/-- **What follows a key or a dash tells the value.** -/
theorem valueTells : ∀ v : Value, KeyTells v ∧ DashTells v
  | .arr (v :: vs) => ⟨keyTells_arr (itemsTell (v :: vs)), dashTells_arr (itemsTell (v :: vs))⟩
  | .obj ((name, v) :: ms) =>
    ⟨keyTells_obj (membersTell ((name, v) :: ms)), dashTells_obj (membersTell ((name, v) :: ms))⟩
  | .arr [] | .obj [] | .null | .bool _ | .int _ | .float _ | .str _ =>
    ⟨keyTells_leaf rfl, dashTells_leaf rfl⟩

theorem itemsTell : ∀ vs : List Value, ItemsTell vs
  | [] => itemsTell_nil
  | v :: vs => itemsTell_cons (valueTells v).2 (itemsTell vs)

theorem membersTell : ∀ ms : Members, MembersTell ms
  | [] => membersTell_nil
  | (_, v) :: ms => membersTell_cons (valueTells v).1 (membersTell ms)

end

/-- **A document tells its members.** -/
theorem document_inj {ns : Members} (hms : FitMembers 0 ms) (hns : FitMembers 0 ns)
    (h : document ms = document ns) : ms = ns := by
  have hlines : members 0 ms ++ [] = members 0 ns ++ [] := by
    rw [List.append_nil, List.append_nil]
    exact h
  exact (membersTell ms hms hns (.inl rfl) (.inl rfl) hlines).1

end Yaml
end ReverseDns
