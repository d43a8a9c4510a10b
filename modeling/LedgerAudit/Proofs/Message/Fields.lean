import LedgerAudit.Proofs.Json.Rewriting
import LedgerAudit.Proofs.Message.Catalogue

/-!
# The fields of the messages

For every kind of message, its fields: the name in camel case and the shape of the value. A field
may also be spelled in snake case, and the layouts that read the messages know both spellings.
-/

namespace LedgerAudit.Message

inductive EnumKind
  | sortOrder
  | sortTarget
  | compareResult
  | compareTarget
deriving DecidableEq, Repr

def EnumKind.names : EnumKind → List String
  | sortOrder => RangeRequest.sortOrders
  | sortTarget => RangeRequest.sortTargets
  | compareResult => Compare.results
  | compareTarget => Compare.targets

/-- What stands under a key: a scalar, a message, a message or null, or a list of messages. -/
inductive Shape
  | bytes
  | int64
  | uint64
  | enumeration (e : EnumKind)
  | flag
  | message (k : MessageKind)
  | optional (k : MessageKind)
  | repeated (k : MessageKind)
deriving DecidableEq, Repr

namespace Shape

def Carrier : Shape → Type
  | bytes => Bytes
  | int64 => Int64
  | uint64 => UInt64
  | enumeration _ => Int32
  | flag => Bool
  | message k => k.Carrier
  | optional k => Option k.Carrier
  | repeated k => List k.Carrier

def codec : (s : Shape) → Json.Codec s.Carrier
  | bytes => .base64
  | int64 => .fixedWidth Int64
  | uint64 => .fixedWidth UInt64
  | enumeration e => .enumeration e.names
  | flag => .bool
  | message k => k.format.codec
  | optional k => k.format.codec.optional
  | repeated k => k.format.codec.list

/-- Null stands for the default of bytes, numbers and enumerations, and for no message. -/
def takesNull : Shape → Bool
  | bytes | int64 | uint64 | enumeration _ | optional _ => true
  | _ => false

end Shape

def snakeCase (name : String) : String :=
  String.ofList (name.toList.flatMap fun c => if c.isUpper then ['_', c.toLower] else [c])

/-- A field of a message. The operands of a comparison exclude each other, so even a null sets the
one it stands under. -/
structure Field where
  name : String
  shape : Shape
  isOperand : Bool
deriving DecidableEq, Repr

namespace Field

/-- The two spellings of the name. They are the same when the name is one word. -/
def keys (f : Field) : List String := [f.name, snakeCase f.name]

/-- Whether a null under the field says what leaving it out says. -/
def nullable (f : Field) : Bool := f.shape.takesNull && !f.isOperand

def plain (name : String) (shape : Shape) : Field := ⟨name, shape, false⟩

def operand (name : String) (shape : Shape) : Field := ⟨name, shape, true⟩

end Field

open LedgerAudit.Message.Field (plain operand)

/-- The fields of a message, in the order of its declaration. -/
def MessageKind.fields : MessageKind → List Field
  | responseHeader =>
    [plain "clusterId" .uint64, plain "memberId" .uint64, plain "revision" .int64,
      plain "raftTerm" .uint64, plain "committedRevision" .int64, plain "committedRaftTerm" .uint64]
  | keyValue =>
    [plain "key" .bytes, plain "createRevision" .int64, plain "modRevision" .int64,
      plain "version" .int64, plain "value" .bytes, plain "lease" .int64]
  | putRequest =>
    [plain "key" .bytes, plain "value" .bytes, plain "lease" .int64, plain "prevKv" .flag,
      plain "ignoreValue" .flag, plain "ignoreLease" .flag]
  | putResponse =>
    [plain "header" (.optional responseHeader), plain "prevKv" (.optional keyValue)]
  | deleteRangeRequest =>
    [plain "key" .bytes, plain "rangeEnd" .bytes, plain "prevKv" .flag]
  | deleteRangeResponse =>
    [plain "header" (.optional responseHeader), plain "deleted" .int64,
      plain "prevKvs" (.repeated keyValue)]
  | rangeRequest =>
    [plain "key" .bytes, plain "rangeEnd" .bytes, plain "limit" .int64, plain "revision" .int64,
      plain "sortOrder" (.enumeration .sortOrder), plain "sortTarget" (.enumeration .sortTarget),
      plain "serializable" .flag, plain "keysOnly" .flag, plain "countOnly" .flag,
      plain "minModRevision" .int64, plain "maxModRevision" .int64,
      plain "minCreateRevision" .int64, plain "maxCreateRevision" .int64]
  | rangeResponse =>
    [plain "header" (.optional responseHeader), plain "kvs" (.repeated keyValue),
      plain "more" .flag, plain "count" .int64]
  | compare =>
    [plain "result" (.enumeration .compareResult), plain "target" (.enumeration .compareTarget),
      plain "key" .bytes, operand "version" .int64, operand "createRevision" .int64,
      operand "modRevision" .int64, operand "value" .bytes, operand "lease" .int64,
      plain "rangeEnd" .bytes]
  | requestOp =>
    [plain "requestRange" (.optional rangeRequest), plain "requestPut" (.optional putRequest),
      plain "requestDeleteRange" (.optional deleteRangeRequest),
      plain "requestTxn" (.optional txnRequest)]
  | responseOp =>
    [plain "responseRange" (.optional rangeResponse), plain "responsePut" (.optional putResponse),
      plain "responseDeleteRange" (.optional deleteRangeResponse),
      plain "responseTxn" (.optional txnResponse)]
  | txnRequest =>
    [plain "compare" (.repeated compare), plain "success" (.repeated requestOp),
      plain "failure" (.repeated requestOp)]
  | txnResponse =>
    [plain "header" (.optional responseHeader), plain "succeeded" .flag,
      plain "responses" (.repeated responseOp)]

namespace MessageKind

/-- What the members of an object are put together in, before it is made a message. -/
def Flat : MessageKind → Type
  | compare => Compare.Flat
  | requestOp => RequestOp.Flat
  | responseOp => ResponseOp.Flat
  | k => k.Carrier

def schema : (k : MessageKind) → Schema k.Flat
  | responseHeader => ResponseHeader.schema
  | keyValue => KeyValue.schema
  | putRequest => PutRequest.schema
  | putResponse => PutResponse.schema
  | deleteRangeRequest => DeleteRangeRequest.schema
  | deleteRangeResponse => DeleteRangeResponse.schema
  | rangeRequest => RangeRequest.schema
  | rangeResponse => RangeResponse.schema
  | compare => Compare.Flat.schema
  | requestOp => RequestOp.Flat.schemaOver RequestOp.format
  | responseOp => ResponseOp.Flat.schemaOver ResponseOp.format
  | txnRequest => TxnRequest.schema
  | txnResponse => TxnResponse.schema

def collapse : (k : MessageKind) → k.Flat → Except Json.Fault k.Carrier
  | compare => Compare.Flat.collapse
  | requestOp => RequestOp.Flat.collapse
  | responseOp => ResponseOp.Flat.collapse
  | responseHeader | keyValue | putRequest | putResponse | deleteRangeRequest
  | deleteRangeResponse | rangeRequest | rangeResponse | txnRequest | txnResponse => .ok

/-- A message is read by its schema, and then made from what the schema read. -/
theorem read_eq (k : MessageKind) (v : Json) :
    k.format.codec.read v = k.schema.layout.read v >>= k.collapse := by
  cases k with
  | compare => rfl
  | requestOp => exact RequestOp.format_read_eq v
  | responseOp => exact ResponseOp.format_read_eq v
  | _ => exact (bind_pure _).symm

theorem layout_lawful (k : MessageKind) : k.schema.layout.Lawful := by
  cases k with
  | responseHeader => exact ResponseHeader.layout_lawful
  | keyValue => exact KeyValue.layout_lawful
  | putRequest => exact PutRequest.layout_lawful
  | putResponse => exact PutResponse.layout_lawful
  | deleteRangeRequest => exact DeleteRangeRequest.layout_lawful
  | deleteRangeResponse => exact DeleteRangeResponse.layout_lawful
  | rangeRequest => exact RangeRequest.layout_lawful
  | rangeResponse => exact RangeResponse.layout_lawful
  | compare => exact Compare.Flat.layout_lawful
  | requestOp => exact RequestOp.Flat.layout_lawful _
  | responseOp => exact ResponseOp.Flat.layout_lawful _
  | txnRequest => exact TxnRequest.layout_lawful _
  | txnResponse => exact TxnResponse.layout_lawful _

end MessageKind

namespace Field

variable {σ : Type} {field : Field} {blank : σ}

/-- A field of a layout that reads what a field of a message describes: under the same spellings,
by the codec of the shape, and into a place of its own. -/
structure Describes (field : Field) (blank : σ) (f : Json.FieldSpec σ) : Prop where
  name_eq : f.name = field.name
  alternate_eq : f.alternate.getD f.name = snakeCase field.name
  required_eq : f.required = false
  read_eq : ∃ set : field.shape.Carrier → σ → σ,
    ∀ v s, f.read v s = (field.shape.codec.read v).map (set · s)
  read_null : field.nullable = true → f.read .null blank = .ok blank

theorem Describes.mem_keys {f : Json.FieldSpec σ} (h : field.Describes blank f) (key : String) :
    key ∈ f.keys ↔ key ∈ field.keys := by
  rw [Json.FieldSpec.keys, Field.keys, ← h.alternate_eq, ← h.name_eq]
  cases f.alternate <;> simp

/-- The arm of a choice sets itself to what it reads. -/
theorem describes_operand {name : String} {shape : Shape} {alternate : Option String}
    {write : shape.Carrier → Json} {get : σ → Option shape.Carrier}
    {set : Option shape.Carrier → σ → σ} (h : alternate.getD name = snakeCase name) :
    (operand name shape).Describes blank
      (.arm name alternate (fun v => (shape.codec.read v).map some) write get set) where
  name_eq := rfl
  alternate_eq := h
  required_eq := rfl
  read_eq := by
    refine ⟨fun a => set (some a), fun v s => ?_⟩
    change ((shape.codec.read v).map some).map (set · s) = (shape.codec.read v).map _
    cases shape.codec.read v <;> rfl
  read_null h := by simp [nullable, operand] at h

end Field

/-- The schemas read the fields of the messages, in their order. -/
theorem MessageKind.described (k : MessageKind) :
    List.Forall₂ (fun field (f : FieldSpec k.Flat) => field.Describes k.schema.blank f.json)
      k.fields k.schema.fields := by
  -- a field that takes null, a field that does not, and an operand of a comparison
  cases k
  all_goals repeat' first | exact List.Forall₂.nil | refine List.Forall₂.cons ?_ ?_
  all_goals first
    | exact ⟨rfl, by decide, rfl, ⟨_, fun _ _ => rfl⟩, fun _ => rfl⟩
    | exact ⟨rfl, by decide, rfl, ⟨_, fun _ _ => rfl⟩, nofun⟩
    | exact Field.describes_operand (by decide)

example : snakeCase "committedRaftTerm" = "committed_raft_term" := by decide

end LedgerAudit.Message
