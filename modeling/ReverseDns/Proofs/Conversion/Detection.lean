/-
# Detection decides a conversion

An input is converted in the direction that is detected for it. `attempt` makes
the two steps of that apart: an address is written as its name, anything else is
read as a name, and the attempt ends in a pair of texts or in an error. Once an
address is detected the attempt cannot fail, and the bytes of a name that is
read always make an address, so the only errors are those of reading a name
(`Direction.attempt_detect_eq_error_iff`). An entry is what its attempt ends in.

Key definitions: `Direction.attempt`, `Entry.ofAttempt`, `Entry.Agrees`.
Key theorems: `ReverseName.not_isText_of_isReverseName`,
`Direction.attempt_detect_eq_error_iff`, `Entry.ofInput_eq_ofAttempt`,
`Entry.ofInput_agrees`.
-/
import ReverseDns.Proofs.Conversion
import ReverseDns.Proofs.Error.Chain
import ReverseDns.Proofs.Log.Written
import ReverseDns.ReverseName.Query

namespace ReverseDns

/-! ### The two readers -/

namespace ReverseName

variable {t : Text} {e : Error}

/-- No text is both an address and a reverse name. -/
theorem not_isText_of_isReverseName (h : isReverseName t = true) : Address.isText t = false := by
  obtain ⟨bs, hbs⟩ := isReverseName_iff.mp h
  unfold Address.isText
  rw [read?_eq_none_of_decode hbs]
  rfl

/-- The bytes of a name that is read make an address. -/
theorem exists_address_of_decode {bs : List UInt8} (h : decode t = .ok bs) :
    ∃ a : Address, a.scope = none ∧ decode t = .ok a.bytes := by
  obtain ⟨a, rfl, hs⟩ := Address.exists_of_length (length_of_decode h)
  exact ⟨a, hs, h⟩

/-- Reading a name as an address fails only as reading it does. -/
theorem toAddress_eq_error_iff : toAddress t = .error e ↔ decode t = .error e := by
  cases h : decode t with
  | ok bs =>
    obtain ⟨a, hs, ha⟩ := exists_address_of_decode h
    rw [toAddress_eq_ok_iff.mpr ⟨ha, hs⟩]
    simp
  | error err =>
    unfold toAddress
    simp [h]

/-- An error of reading a name is about the whole name, which it quotes. -/
theorem quote_isPrefix_of_decode (h : decode t = .error e) :
    "bad arpa domain name ".toList ++ Text.quote t <+: e.message := by
  obtain ⟨cause, -, rfl⟩ := decode_eq_error_iff_decodeName.mp h
  exact Error.quote_isPrefix_message Subject.reverseName t cause

end ReverseName

/-! ### The attempt -/

namespace Direction

variable {t : Text} {e : Error}

/-- What a text is converted to in a direction, and the reverse name: an address
gives its name twice, a name gives the text of its address and the name as it is
written. -/
def attempt (t : Text) : Direction → Except Error (Text × Text)
  | .toReverseName => (ReverseName.ofText t).map fun name => (name, name)
  | .fromReverseName => (ReverseName.toAddress t).map fun a => (a.text, ReverseName.ofAddress a)

theorem detect_eq_iff : detect t = .toReverseName ↔ Address.isText t = true := by
  unfold detect
  split <;> simp_all

theorem detect_of_read? {a : Address} (h : Address.read? t = some a) : detect t = .toReverseName := by
  rw [detect_eq_iff, Address.isText, h]
  rfl

theorem detect_of_read?_eq_none (h : Address.read? t = none) : detect t = .fromReverseName := by
  unfold detect Address.isText
  rw [h]
  rfl

theorem attempt_of_read? {a : Address} (h : Address.read? t = some a) :
    attempt t .toReverseName = .ok (ReverseName.ofAddress a, ReverseName.ofAddress a) := by
  unfold attempt ReverseName.ofText Address.ofText
  rw [h]
  rfl

/-- **Only reading a name fails.** An address that is detected is converted. -/
theorem attempt_detect_eq_error_iff : attempt t (detect t) = .error e ↔
    Address.isText t = false ∧ ReverseName.decode t = .error e := by
  cases h : Address.read? t with
  | some a =>
    rw [detect_of_read? h, attempt_of_read? h, Address.isText, h]
    simp
  | none =>
    rw [detect_of_read?_eq_none h, attempt, Address.isText, h, ← ReverseName.toAddress_eq_error_iff]
    cases ReverseName.toAddress t <;> simp [Except.map]

end Direction

/-! ### Entries -/

namespace Entry

variable {v t : Text} {e : Error}

/-- The entry of an input by the direction detected and what the attempt ended
in. -/
def ofAttempt (input : Text) (direction : Direction) : Except Error (Text × Text) → Entry
  | .ok (output, name) =>
    { input, direction, status := .ok, output := some output, reverseName := some name }
  | .error e =>
    { input, direction, status := .error
      errorKind := some e.root.kind.text
      errorMessage := some e.message }

/-- **An entry is what its attempt ends in.** -/
theorem ofInput_eq_ofAttempt (v : Text) : ofInput v =
    ofAttempt v (Direction.detect (Text.trim v))
      (Direction.attempt (Text.trim v) (Direction.detect (Text.trim v))) := by
  cases h : Address.read? (Text.trim v) with
  | some a =>
    rw [Direction.detect_of_read? h, Direction.attempt_of_read? h, ofInput_of_read? h]
    rfl
  | none =>
    rw [Direction.detect_of_read?_eq_none h, Direction.attempt]
    unfold ofInput
    simp only [h]
    cases ReverseName.toAddress (Text.trim v) <;> rfl

theorem ofInput_of_error (ha : Address.isText (Text.trim v) = false)
    (hd : ReverseName.decode (Text.trim v) = .error e) : ofInput v =
      { input := v, direction := .fromReverseName, status := .error
        errorKind := some e.root.kind.text
        errorMessage := some e.message } := by
  have h := Direction.attempt_detect_eq_error_iff.mpr ⟨ha, hd⟩
  rw [ofInput_eq_ofAttempt, h]
  unfold Direction.detect
  rw [ha]
  rfl

/-! ### The fields of an entry -/

theorem input_ofInput (v : Text) : (ofInput v).input = v := by
  rw [ofInput_eq_ofAttempt]
  cases Direction.attempt (Text.trim v) (Direction.detect (Text.trim v)) <;> rfl

theorem ptr_ofInput (v : Text) : (ofInput v).ptr = none := by
  rw [ofInput_eq_ofAttempt]
  cases Direction.attempt (Text.trim v) (Direction.detect (Text.trim v)) <;> rfl

theorem direction_ofInput (v : Text) : (ofInput v).direction = Direction.detect (Text.trim v) := by
  rw [ofInput_eq_ofAttempt]
  cases Direction.attempt (Text.trim v) (Direction.detect (Text.trim v)) <;> rfl

theorem isOk_of_isText (h : Address.isText (Text.trim v) = true) : (ofInput v).isOk = true := by
  obtain ⟨a, ha⟩ := Option.isSome_iff_exists.mp h
  rw [ofInput_of_read? ha]
  rfl

theorem isOk_of_isReverseName (h : ReverseName.isReverseName (Text.trim v) = true) :
    (ofInput v).isOk = true := by
  obtain ⟨bs, hbs⟩ := ReverseName.isReverseName_iff.mp h
  obtain ⟨a, hs, ha⟩ := ReverseName.exists_address_of_decode hbs
  rw [ofInput_of_decode ha hs]
  rfl

/-- What a bad entry comes from: no address, and no name either. -/
theorem exists_error_of_isOk_eq_false (h : (ofInput v).isOk = false) :
    Address.isText (Text.trim v) = false ∧ ∃ err, ReverseName.decode (Text.trim v) = .error err := by
  constructor
  · by_contra ha
    rw [Bool.not_eq_false] at ha
    rw [isOk_of_isText ha] at h
    exact absurd h (by decide)
  · cases hd : ReverseName.decode (Text.trim v) with
    | error err => exact ⟨err, rfl⟩
    | ok bs =>
      rw [isOk_of_isReverseName (ReverseName.isReverseName_iff.mpr ⟨bs, hd⟩)] at h
      exact absurd h (by decide)

theorem isOk_ofInput_iff : (ofInput v).isOk = true ↔
    Address.isText (Text.trim v) = true ∨ ReverseName.isReverseName (Text.trim v) = true := by
  constructor
  · intro h
    rcases ofInput_cases h with ⟨a, ha⟩ | ⟨a, -, ha⟩
    · exact Or.inl (Option.isSome_iff_exists.mpr ⟨a, ha⟩)
    · exact Or.inr (ReverseName.isReverseName_iff.mpr ⟨_, ha⟩)
  · rintro (h | h)
    · exact isOk_of_isText h
    · exact isOk_of_isReverseName h

/-- A good entry has the name of an address and no error. -/
theorem exists_ofAddress_of_isOk (h : (ofInput v).isOk = true) :
    ∃ output a, (ofInput v).output = some output ∧
      (ofInput v).reverseName = some (ReverseName.ofAddress a) ∧
      (ofInput v).errorKind = none ∧ (ofInput v).errorMessage = none := by
  rcases ofInput_cases h with ⟨a, ha⟩ | ⟨a, hs, ha⟩
  · rw [ofInput_of_read? ha]
    exact ⟨_, a, rfl, rfl, rfl, rfl⟩
  · rw [ofInput_of_decode ha hs]
    exact ⟨_, a, rfl, rfl, rfl, rfl⟩

/-- An entry agrees with the two readers of its input without surrounding white
space, and its fields agree with one another. -/
structure Agrees (v : Text) (e : Entry) : Prop where
  /-- The entry is what the attempt ends in, which fails only as reading a name does. -/
  attempt : e = ofAttempt v (Direction.detect (Text.trim v))
    (Direction.attempt (Text.trim v) (Direction.detect (Text.trim v)))
  fails : ∀ err, Direction.attempt (Text.trim v) (Direction.detect (Text.trim v)) = .error err →
    ReverseName.decode (Text.trim v) = .error err
  /-- What is logged of the entry can be written in every state of logging, however long the
  conversion took. -/
  logged : ∀ (session : Log.Session) (stamp : Log.Stamp) (durationMs : Int),
    ∃ lines, session.write stamp (e.record durationMs) = .ok lines
  input : e.input = v
  ptr : e.ptr = none
  direction : e.direction = .toReverseName ↔ Address.isText (Text.trim v) = true
  isOk : e.isOk = true ↔
    Address.isText (Text.trim v) = true ∨ ReverseName.isReverseName (Text.trim v) = true
  isOk_of_direction : e.direction = .toReverseName → e.isOk = true
  /-- A good entry has no error, and its reverse name is the one written of the bytes that are
  read from it. -/
  good : e.isOk = true → e.errorKind = none ∧ e.errorMessage = none ∧
    ∃ output name bs, e.output = some output ∧ e.reverseName = some name ∧
      ReverseName.decode name = .ok bs ∧ ReverseName.encode (some bs) = .ok name
  /-- A bad entry has the message of the error of reading a name and the kind of the innermost
  error below it. -/
  bad : e.isOk = false → e.output = none ∧ e.reverseName = none ∧
    ∃ err last, ReverseName.decode (Text.trim v) = .error err ∧
      e.errorMessage = some err.message ∧
      "bad arpa domain name ".toList ++ Text.quote (Text.trim v) <+: err.message ∧
      err.chain.getLast? = some last ∧ e.errorKind = some last.kind.text

/-- **Every input has an entry that agrees with its detection**, and no text is
both an address and a reverse name. -/
theorem ofInput_agrees (v : Text) : Agrees v (ofInput v) ∧
    ∀ t, ¬ (Address.isText t = true ∧ ReverseName.isReverseName t = true) := by
  have hdir : (ofInput v).direction = .toReverseName ↔ Address.isText (Text.trim v) = true := by
    rw [direction_ofInput, Direction.detect_eq_iff]
  have hclash : ∀ durationMs, ((ofInput v).record durationMs).clash? = none :=
    Log.Record.clash?_conversion _ _ _ _
  refine ⟨⟨ofInput_eq_ofAttempt v, fun err h => ?_,
    fun session stamp _ => session.exists_write stamp (hclash _), input_ofInput v, ptr_ofInput v, hdir,
    isOk_ofInput_iff, fun h => isOk_of_isText (hdir.mp h), fun h => ?_, fun h => ?_⟩, ?_⟩
  · exact (Direction.attempt_detect_eq_error_iff.mp h).2
  · obtain ⟨output, a, ho, hn, hk, hm⟩ := exists_ofAddress_of_isOk h
    exact ⟨hk, hm, output, _, a.bytes, ho, hn, ReverseName.decode_ofAddress a,
      ReverseName.encode_bytes a⟩
  · obtain ⟨ha, err, hd⟩ := exists_error_of_isOk_eq_false h
    rw [ofInput_of_error ha hd]
    exact ⟨rfl, rfl, err, err.root, hd, rfl, ReverseName.quote_isPrefix_of_decode hd,
      err.getLast?_chain, rfl⟩
  · rintro t ⟨ha, hn⟩
    rw [ReverseName.not_isText_of_isReverseName hn] at ha
    exact absurd ha (by decide)

end Entry
end ReverseDns
