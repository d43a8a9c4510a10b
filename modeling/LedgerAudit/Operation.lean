import LedgerAudit.Message.Txn

/-!
# Operations and their claims

An operation pairs a request with the response the service returned for it. Its claims are the two
messages in one record each, tagged by kind, and without the header of the response: the same
operation is answered under many headers.
-/

namespace LedgerAudit

inductive OperationKind
  | put
  | deleteRange
  | txn
deriving DecidableEq, Repr

namespace OperationKind

def name : OperationKind → String
  | .put => "put"
  | .deleteRange => "delete_range"
  | .txn => "txn"

def all : List OperationKind := [.put, .deleteRange, .txn]

def ofName? (text : String) : Option OperationKind := all.find? fun k => k.name == text

def codec : Json.Codec OperationKind := .variant (all.map fun k => (k.name, k)) name

@[simp] theorem ofName?_name (k : OperationKind) : ofName? k.name = some k := by
  cases k <;> rfl

end OperationKind

inductive Operation
  | put (request : PutRequest) (response : PutResponse)
  | deleteRange (request : DeleteRangeRequest) (response : DeleteRangeResponse)
  | txn (request : TxnRequest) (response : TxnResponse)

namespace Operation

open Protobuf (Record)

/-- A body that does not read as the message of its kind. -/
inductive Fault
  | request (kind : OperationKind) (fault : Json.Fault)
  | response (kind : OperationKind) (fault : Json.Fault)

def Fault.message : Fault → String
  | .request kind fault => s!"{kind.name} request: {fault.message}"
  | .response kind fault => s!"{kind.name} response: {fault.message}"

def kind : Operation → OperationKind
  | .put _ _ => .put
  | .deleteRange _ _ => .deleteRange
  | .txn _ _ => .txn

/-- Reads a request and then a response with the formats of one kind. -/
def readPair {α β : Type} (kind : OperationKind) (requestFormat : Message.Format α)
    (responseFormat : Message.Format β) (request response : Json) : Except Fault (α × β) :=
  match requestFormat.read request with
  | .error fault => .error (.request kind fault)
  | .ok a =>
    match responseFormat.read response with
    | .error fault => .error (.response kind fault)
    | .ok b => .ok (a, b)

def read (kind : OperationKind) (request response : Json) : Except Fault Operation :=
  match kind with
  | .put => do
    let (a, b) ← readPair kind PutRequest.format PutResponse.format request response
    return .put a b
  | .deleteRange => do
    let (a, b) ←
      readPair kind DeleteRangeRequest.format DeleteRangeResponse.format request response
    return .deleteRange a b
  | .txn => do
    let (a, b) ← readPair kind TxnRequest.format TxnResponse.format request response
    return .txn a b

def requestJson : Operation → Json
  | .put request _ => PutRequest.format.toJson request
  | .deleteRange request _ => DeleteRangeRequest.format.toJson request
  | .txn request _ => TxnRequest.format.toJson request

def responseJson : Operation → Json
  | .put _ response => PutResponse.format.toJson response
  | .deleteRange _ response => DeleteRangeResponse.format.toJson response
  | .txn _ response => TxnResponse.format.toJson response

/-- The claims: the request under tag 1, 2 or 3, and the response under tag 4, 5 or 6. -/
def claims : Operation → List Record
  | .put request response =>
    [⟨1, .bytes (PutRequest.format.encode request)⟩,
      ⟨4, .bytes (PutResponse.format.encode response.withoutHeader)⟩]
  | .deleteRange request response =>
    [⟨2, .bytes (DeleteRangeRequest.format.encode request)⟩,
      ⟨5, .bytes (DeleteRangeResponse.format.encode response.withoutHeader)⟩]
  | .txn request response =>
    [⟨3, .bytes (TxnRequest.format.encode request)⟩,
      ⟨6, .bytes (TxnResponse.format.encode response.withoutHeader)⟩]

def claimsBytes (op : Operation) : Bytes := Record.encodeAll op.claims

def claimsDigest (op : Operation) : Digest := .hash op.claimsBytes

end Operation

end LedgerAudit
