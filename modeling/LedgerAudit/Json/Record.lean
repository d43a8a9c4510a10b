import LedgerAudit.Json.Codec

/-!
# Objects with named fields

A record layout lists the fields of a structure. An object is read member by member: unknown keys
are passed over, and a field that comes twice, also under its other spelling, is refused. An array
is read field by field in the order of the layout.
-/

namespace LedgerAudit.Json

/-- A field of `σ`: its key, an alternate spelling of it, and how it is read and written. -/
structure FieldSpec (σ : Type) where
  name : String
  alternate : Option String
  required : Bool
  read : Json → σ → Except Fault σ
  write : σ → Option Json

namespace FieldSpec

variable {σ α : Type}

def answersTo (f : FieldSpec σ) (key : String) : Bool := key == f.name || f.alternate == some key

def ofCodec (name : String) (alternate : Option String) (c : Codec α) (get : σ → α)
    (set : α → σ → σ) : FieldSpec σ where
  name := name
  alternate := alternate
  required := false
  read v s := (c.read v).map fun a => set a s
  write s := some (c.write (get s))

/-- A field that is left out when it has no value. Whatever is read is a value. -/
def arm (name : String) (alternate : Option String) (read : Json → Except Fault (Option α))
    (write : α → Json) (get : σ → Option α) (set : Option α → σ → σ) : FieldSpec σ where
  name := name
  alternate := alternate
  required := false
  read v s := (read v).map fun a => set a s
  write s := (get s).map write

end FieldSpec

structure Layout (σ : Type) where
  title : String
  blank : σ
  fields : List (FieldSpec σ)

namespace Layout

variable {σ : Type}

/-- Reads members in their order; `seen` holds the names of the fields that came already. -/
def readMembers (fields : List (FieldSpec σ)) : Members → (seen : List String) → σ →
    Except Fault (σ × List String)
  | [], seen, s => .ok (s, seen)
  | (key, v) :: rest, seen, s =>
    match fields.find? (·.answersTo key) with
    | none => readMembers fields rest seen s
    | some f =>
      if seen.contains f.name then .error (.duplicateField f.name)
      else do readMembers fields rest (f.name :: seen) (← f.read v s)

def missing? (fields : List (FieldSpec σ)) (seen : List String) : Option String :=
  (fields.find? fun f => f.required && !seen.contains f.name).map FieldSpec.name

/-- Reads elements in the order of the fields; `position` counts the elements read. -/
def readElements (title : String) (total count position : Nat) :
    List (FieldSpec σ) → List Json → σ → Except Fault σ
  | [], [], s => .ok s
  | [], _ :: _, _ => .error (.tooLong total)
  | f :: fs, [], s =>
    if f.required then .error (.tooShort position title count)
    else readElements title total count (position + 1) fs [] s
  | f :: fs, v :: vs, s => do
    readElements title total count (position + 1) fs vs (← f.read v s)

def read (l : Layout σ) : Json → Except Fault σ
  | .object members => do
    let (s, seen) ← readMembers l.fields members [] l.blank
    match missing? l.fields seen with
    | none => return s
    | some name => throw (.missingField name)
  | .array items =>
    readElements l.title items.length l.fields.length 0 l.fields items l.blank
  | v => .error (.wrongType v s!"struct {l.title}")

def write (l : Layout σ) (s : σ) : Json :=
  .object (l.fields.filterMap fun f => (f.write s).map fun v => (f.name, v))

def codec (l : Layout σ) : Codec σ := ⟨l.read, l.write⟩

end Layout

end LedgerAudit.Json
