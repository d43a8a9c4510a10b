import LedgerAudit.Operation
import LedgerAudit.Proofs.Message.Catalogue
import LedgerAudit.Proofs.Protobuf.Canonical

/-!
# The fields of the messages

Every message as its fields with their tags and values, without its schema: which values may be
left out, which are there whenever they are set, and of which there may be many.
-/

namespace LedgerAudit

open Message Protobuf

namespace Protobuf

variable {σ : Type}

/-- A message that may be missing. -/
def Slot.embedded (declared : σ → List Field) (m : Option σ) : Slot :=
  .optional (m.map fun m => .message (declared m))

/-- Any number of messages. -/
def Slot.all (declared : σ → List Field) (ms : List σ) : Slot :=
  .repeated (ms.map fun m => .message (declared m))

/-- The arms of a choice, of which the one that is set has a value. -/
def choice (tags : List Nat) (arm : Option (Nat × Value)) : List Field :=
  tags.map fun tag => ⟨tag, .optional (arm.bind fun a => if a.1 = tag then some a.2 else none)⟩

end Protobuf

def ResponseHeader.declared (m : ResponseHeader) : List Field :=
  [⟨1, .plain (.uint64 m.clusterId)⟩, ⟨2, .plain (.uint64 m.memberId)⟩,
    ⟨3, .plain (.int64 m.revision)⟩, ⟨4, .plain (.uint64 m.raftTerm)⟩,
    ⟨5, .plain (.int64 m.committedRevision)⟩, ⟨6, .plain (.uint64 m.committedRaftTerm)⟩]

def KeyValue.declared (m : KeyValue) : List Field :=
  [⟨1, .plain (.bytes m.key)⟩, ⟨2, .plain (.int64 m.createRevision)⟩,
    ⟨3, .plain (.int64 m.modRevision)⟩, ⟨4, .plain (.int64 m.version)⟩,
    ⟨5, .plain (.bytes m.value)⟩, ⟨6, .plain (.int64 m.lease)⟩]

def PutRequest.declared (m : PutRequest) : List Field :=
  [⟨1, .plain (.bytes m.key)⟩, ⟨2, .plain (.bytes m.value)⟩, ⟨3, .plain (.int64 m.lease)⟩,
    ⟨4, .plain (.bool m.prevKv)⟩, ⟨5, .plain (.bool m.ignoreValue)⟩,
    ⟨6, .plain (.bool m.ignoreLease)⟩]

def PutResponse.declared (m : PutResponse) : List Field :=
  [⟨1, .embedded ResponseHeader.declared m.header⟩, ⟨2, .embedded KeyValue.declared m.prevKv⟩]

def DeleteRangeRequest.declared (m : DeleteRangeRequest) : List Field :=
  [⟨1, .plain (.bytes m.key)⟩, ⟨2, .plain (.bytes m.rangeEnd)⟩, ⟨3, .plain (.bool m.prevKv)⟩]

def DeleteRangeResponse.declared (m : DeleteRangeResponse) : List Field :=
  [⟨1, .embedded ResponseHeader.declared m.header⟩, ⟨2, .plain (.int64 m.deleted)⟩,
    ⟨3, .all KeyValue.declared m.prevKvs⟩]

def RangeRequest.declared (m : RangeRequest) : List Field :=
  [⟨1, .plain (.bytes m.key)⟩, ⟨2, .plain (.bytes m.rangeEnd)⟩, ⟨3, .plain (.int64 m.limit)⟩,
    ⟨4, .plain (.int64 m.revision)⟩, ⟨5, .plain (.enumeration m.sortOrder)⟩,
    ⟨6, .plain (.enumeration m.sortTarget)⟩, ⟨7, .plain (.bool m.serializable)⟩,
    ⟨8, .plain (.bool m.keysOnly)⟩, ⟨9, .plain (.bool m.countOnly)⟩,
    ⟨10, .plain (.int64 m.minModRevision)⟩, ⟨11, .plain (.int64 m.maxModRevision)⟩,
    ⟨12, .plain (.int64 m.minCreateRevision)⟩, ⟨13, .plain (.int64 m.maxCreateRevision)⟩]

def RangeResponse.declared (m : RangeResponse) : List Field :=
  [⟨1, .embedded ResponseHeader.declared m.header⟩, ⟨2, .all KeyValue.declared m.kvs⟩,
    ⟨3, .plain (.bool m.more)⟩, ⟨4, .plain (.int64 m.count)⟩]

def Compare.Operand.arm : Operand → Nat × Value
  | version n => (4, .int64 n)
  | createRevision n => (5, .int64 n)
  | modRevision n => (6, .int64 n)
  | value b => (7, .bytes b)
  | lease n => (8, .int64 n)

def Compare.declared (m : Compare) : List Field :=
  [⟨1, .plain (.enumeration m.result)⟩, ⟨2, .plain (.enumeration m.target)⟩,
    ⟨3, .plain (.bytes m.key)⟩] ++
  choice [4, 5, 6, 7, 8] (m.operand.map Operand.arm) ++ [⟨64, .plain (.bytes m.rangeEnd)⟩]

namespace RequestOp

mutual

def declared : RequestOp → List Field
  | .unset => choice [1, 2, 3, 4] none
  | .range request => choice [1, 2, 3, 4] (some (1, .message request.declared))
  | .put request => choice [1, 2, 3, 4] (some (2, .message request.declared))
  | .deleteRange request => choice [1, 2, 3, 4] (some (3, .message request.declared))
  | .txn compare success failure =>
    choice [1, 2, 3, 4] (some (4, .message
      [⟨1, .all Compare.declared compare⟩, ⟨2, .repeated (declaredAll success)⟩,
        ⟨3, .repeated (declaredAll failure)⟩]))

def declaredAll : List RequestOp → List Value
  | [] => []
  | op :: rest => .message (declared op) :: declaredAll rest

end

end RequestOp

def TxnRequest.declared (m : TxnRequest) : List Field :=
  [⟨1, .all Compare.declared m.compare⟩, ⟨2, .all RequestOp.declared m.success⟩,
    ⟨3, .all RequestOp.declared m.failure⟩]

namespace ResponseOp

mutual

def declared : ResponseOp → List Field
  | .unset => choice [1, 2, 3, 4] none
  | .range response => choice [1, 2, 3, 4] (some (1, .message response.declared))
  | .put response => choice [1, 2, 3, 4] (some (2, .message response.declared))
  | .deleteRange response => choice [1, 2, 3, 4] (some (3, .message response.declared))
  | .txn header succeeded responses =>
    choice [1, 2, 3, 4] (some (4, .message
      [⟨1, .embedded ResponseHeader.declared header⟩, ⟨2, .plain (.bool succeeded)⟩,
        ⟨3, .repeated (declaredAll responses)⟩]))

def declaredAll : List ResponseOp → List Value
  | [] => []
  | op :: rest => .message (declared op) :: declaredAll rest

end

end ResponseOp

def TxnResponse.declared (m : TxnResponse) : List Field :=
  [⟨1, .embedded ResponseHeader.declared m.header⟩, ⟨2, .plain (.bool m.succeeded)⟩,
    ⟨3, .all ResponseOp.declared m.responses⟩]

def Message.MessageKind.declared : (k : MessageKind) → k.Carrier → List Field
  | responseHeader => ResponseHeader.declared
  | keyValue => KeyValue.declared
  | putRequest => PutRequest.declared
  | putResponse => PutResponse.declared
  | deleteRangeRequest => DeleteRangeRequest.declared
  | deleteRangeResponse => DeleteRangeResponse.declared
  | rangeRequest => RangeRequest.declared
  | rangeResponse => RangeResponse.declared
  | compare => Compare.declared
  | requestOp => RequestOp.declared
  | responseOp => ResponseOp.declared
  | txnRequest => TxnRequest.declared
  | txnResponse => TxnResponse.declared

/-- The claims are two choices, one of a request and one of a response without its header. -/
def Operation.declaredClaims : Operation → List Field
  | .put request response =>
    choice [1, 2, 3] (some (1, .message request.declared)) ++
      choice [4, 5, 6] (some (4, .message response.withoutHeader.declared))
  | .deleteRange request response =>
    choice [1, 2, 3] (some (2, .message request.declared)) ++
      choice [4, 5, 6] (some (5, .message response.withoutHeader.declared))
  | .txn request response =>
    choice [1, 2, 3] (some (3, .message request.declared)) ++
      choice [4, 5, 6] (some (6, .message response.withoutHeader.declared))

end LedgerAudit
