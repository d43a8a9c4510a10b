import LedgerAudit.Json.Record
import LedgerAudit.Protobuf.Record

/-!
# Message schemas

A schema lists the fields of a message once, with tag, names and type. The JSON form and the
binary form are both read off it. A field of default value has no record in the binary form; an
arm of a choice has one whenever it is set.
-/

namespace LedgerAudit.Message

open Protobuf (Payload Record)

/-- The two forms of a message. -/
structure Format (σ : Type) where
  codec : Json.Codec σ
  records : σ → List Record

namespace Format

variable {σ τ : Type}

def read (f : Format σ) (v : Json) : Except Json.Fault σ := f.codec.read v

def toJson (f : Format σ) (m : σ) : Json := f.codec.write m

def encode (f : Format σ) (m : σ) : Bytes := Record.encodeAll (f.records m)

/-- The format of a type that is presented through another one. -/
def via (f : Format τ) (expand : σ → τ) (collapse : τ → Except Json.Fault σ) : Format σ where
  codec :=
    { read := fun v => do collapse (← f.codec.read v)
      write := fun m => f.codec.write (expand m) }
  records m := f.records (expand m)

def constant (m : σ) : Format σ where
  codec := { read := fun _ => .ok m, write := fun _ => .null }
  records _ := []

end Format

/-- The type of a field: its JSON codec and the payloads of a value, none for a default. -/
structure Kind (α : Type) where
  codec : Json.Codec α
  payloads : α → List Payload

namespace Kind

variable {σ : Type}

/-- The payload of a 64-bit integer is its two's complement. -/
def int64Payload (n : Int64) : Payload := .varint n.toUInt64.toNat

def int64 : Kind Int64 where
  codec := .fixedWidth Int64
  payloads n := if n = 0 then [] else [int64Payload n]

def uint64 : Kind UInt64 where
  codec := .fixedWidth UInt64
  payloads n := if n = 0 then [] else [.varint n.toNat]

def bool : Kind Bool where
  codec := .bool
  payloads b := if b then [.varint 1] else []

def bytes : Kind Bytes where
  codec := .base64
  payloads b := if b.isEmpty then [] else [.bytes b]

/-- A value without a name keeps its number, widened to 64 bits. -/
def enumeration (names : List String) : Kind Int32 where
  codec := .enumeration names
  payloads n := if n = 0 then [] else [int64Payload n.toInt64]

def message (f : Format σ) : Kind (Option σ) where
  codec := f.codec.optional
  payloads m := (m.map fun m => Payload.bytes (f.encode m)).toList

def repeated (f : Format σ) : Kind (List σ) where
  codec := f.codec.list
  payloads ms := ms.map fun m => .bytes (f.encode m)

end Kind

structure FieldSpec (σ : Type) where
  tag : Nat
  json : Json.FieldSpec σ
  payloads : σ → List Payload

namespace FieldSpec

variable {σ α : Type}

def records (f : FieldSpec σ) (m : σ) : List Record := (f.payloads m).map (⟨f.tag, ·⟩)

def plain (tag : Nat) (name : String) (k : Kind α) (get : σ → α) (set : α → σ → σ) :
    FieldSpec σ where
  tag := tag
  json := .ofCodec name none k.codec get set
  payloads m := k.payloads (get m)

def spelled (tag : Nat) (name alternate : String) (k : Kind α) (get : σ → α)
    (set : α → σ → σ) : FieldSpec σ where
  tag := tag
  json := .ofCodec name (some alternate) k.codec get set
  payloads m := k.payloads (get m)

/-- An arm of a choice that holds a message; null leaves it unset. -/
def messageArm (tag : Nat) (name alternate : String) (f : Format α) (get : σ → Option α)
    (set : Option α → σ → σ) : FieldSpec σ where
  tag := tag
  json := .arm name (some alternate) f.codec.optional.read f.codec.write get set
  payloads m := ((get m).map fun a => Payload.bytes (f.encode a)).toList

/-- An arm of a choice that holds a scalar. Null sets it to its default, and it is written by
`write`, which need not be the form that `c` reads. -/
def scalarArm (tag : Nat) (name : String) (alternate : Option String) (c : Json.Codec α)
    (write : α → Json) (payload : α → Payload) (get : σ → Option α)
    (set : Option α → σ → σ) : FieldSpec σ where
  tag := tag
  json := .arm name alternate (fun v => (c.read v).map some) write get set
  payloads m := ((get m).map payload).toList

end FieldSpec

structure Schema (σ : Type) where
  title : String
  blank : σ
  fields : List (FieldSpec σ)

namespace Schema

variable {σ : Type}

def layout (s : Schema σ) : Json.Layout σ := ⟨s.title, s.blank, s.fields.map FieldSpec.json⟩

def format (s : Schema σ) : Format σ where
  codec := s.layout.codec
  records m := s.fields.flatMap fun f => f.records m

end Schema

end LedgerAudit.Message
