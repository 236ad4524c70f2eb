/-
# Reverse names of textual addresses

The helpers that callers with a text or an address use: reading a text as an
address with an error that quotes it, its reverse name, and that name as the
absolute domain name a query asks for, label by label with the empty root label
at the end. Domain names belong to a library that reads them from texts within
the limits on labels and names.

Key definitions: `Address.ofText`, `ReverseName.ofText`, `DomainName`,
`NameLibrary`, `ReverseName.query`, `ReverseName.absolute`.
-/
import ReverseDns.Label
import ReverseDns.ReverseName.Encode

namespace ReverseDns

/-- Reads a text as an address. -/
def Address.ofText (t : Text) : Except Error Address :=
  match Address.read? t with
  | some a => .ok a
  | none => .error (.malformed Subject.address t)

/-- What queries need of a library of domain names: it reads a text as an
absolute name or refuses it, and it gives the labels and the text of a name. -/
structure NameLibrary where
  Name : Type
  Refusal : Type
  read : Text → Except Refusal Name
  labels : Name → List Text
  text : Name → Text

/-- A name is absolute if its last label is the empty one of the root. -/
def NameLibrary.isAbsolute (lib : NameLibrary) (n : lib.Name) : Bool :=
  (lib.labels n).getLast? == some []

/-- A domain name by its labels; an absolute one ends with the empty label. -/
structure DomainName where
  labels : List Text
deriving DecidableEq, Repr

namespace DomainName

/-- The absolute name of a text without a final dot. -/
def absolute (t : Text) : DomainName := ⟨t.splitOn '.' ++ [[]]⟩

def isAbsolute (n : DomainName) : Bool := n.labels.getLast? == some []

/-- The labels with dots between them. -/
def text (n : DomainName) : Text := Text.join ['.'] n.labels

/-- The octets of labels in a message: each label with one octet for its
length. -/
def wireLengthOf : List Text → Nat
  | [] => 0
  | l :: ls => l.length + 1 + wireLengthOf ls

/-- The octets of the name in a message. -/
def wireLength (n : DomainName) : Nat := wireLengthOf n.labels

/-- The longest name in a message. -/
def maxWireLength : Nat := 255

/-- Why a text is no domain name. -/
inductive Refusal
  | emptyLabel
  | longLabel
  | longName
deriving DecidableEq, Repr

/-- Reads a text without escapes and without a final dot as an absolute name. -/
def read (t : Text) : Except Refusal DomainName :=
  if [] ∈ t.splitOn '.' then .error .emptyLabel
  else if ∃ l ∈ t.splitOn '.', Label.maxLength < l.length then .error .longLabel
  else if maxWireLength < (absolute t).wireLength then .error .longName
  else .ok (absolute t)

/-- Names by their labels as a library of names. -/
def library : NameLibrary where
  Name := DomainName
  Refusal := Refusal
  read := read
  labels := labels
  text := text

end DomainName

namespace ReverseName

/-- The reverse name of a textual address. -/
def ofText (t : Text) : Except Error Text := (Address.ofText t).map ofAddress

/-- Reads the reverse name of an address as the name that a query asks for. -/
def query (lib : NameLibrary) (a : Address) : Except lib.Refusal lib.Name := lib.read (ofAddress a)

/-- The same for a textual address, which may be refused itself. -/
def queryOfText (lib : NameLibrary) (t : Text) : Except (Error ⊕ lib.Refusal) lib.Name :=
  match ofText t with
  | .error e => .error (.inl e)
  | .ok name => (lib.read name).mapError .inr

/-- The absolute domain name that a query for an address asks for. -/
def absolute (a : Address) : DomainName := .absolute (ofAddress a)

/-- The same for a textual address. -/
def absoluteOfText (t : Text) : Except Error DomainName := (Address.ofText t).map absolute

end ReverseName
end ReverseDns
