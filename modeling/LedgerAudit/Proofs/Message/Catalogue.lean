import LedgerAudit.Proofs.Message.RestoredTxn

/-!
# The catalogue of messages

Every message that a request, a response or a receipt may hold, with its format.
-/

namespace LedgerAudit.Message

inductive MessageKind
  | responseHeader
  | keyValue
  | putRequest
  | putResponse
  | deleteRangeRequest
  | deleteRangeResponse
  | rangeRequest
  | rangeResponse
  | compare
  | requestOp
  | responseOp
  | txnRequest
  | txnResponse
deriving DecidableEq, Repr

namespace MessageKind

def Carrier : MessageKind → Type
  | responseHeader => ResponseHeader
  | keyValue => KeyValue
  | putRequest => PutRequest
  | putResponse => PutResponse
  | deleteRangeRequest => DeleteRangeRequest
  | deleteRangeResponse => DeleteRangeResponse
  | rangeRequest => RangeRequest
  | rangeResponse => RangeResponse
  | compare => Compare
  | requestOp => RequestOp
  | responseOp => ResponseOp
  | txnRequest => TxnRequest
  | txnResponse => TxnResponse

def format : (k : MessageKind) → Format k.Carrier
  | responseHeader => ResponseHeader.format
  | keyValue => KeyValue.format
  | putRequest => PutRequest.format
  | putResponse => PutResponse.format
  | deleteRangeRequest => DeleteRangeRequest.format
  | deleteRangeResponse => DeleteRangeResponse.format
  | rangeRequest => RangeRequest.format
  | rangeResponse => RangeResponse.format
  | compare => Compare.format
  | requestOp => RequestOp.format
  | responseOp => ResponseOp.format
  | txnRequest => TxnRequest.format
  | txnResponse => TxnResponse.format

/-- The comparisons inside a message, at any depth. Answers hold none. -/
def comparisons : (k : MessageKind) → k.Carrier → List Compare
  | compare, c => [c]
  | requestOp, op => RequestOp.comparisons op
  | txnRequest, t => TxnRequest.comparisons t
  | _, _ => []

/-- A message is restored from its JSON form exactly when no comparison in it compares with
bytes. -/
theorem format_restores_iff (k : MessageKind) (m : k.Carrier) :
    k.format.codec.Restores m ↔ ∀ c ∈ k.comparisons m, ¬ c.TargetsValue := by
  cases k with
  | compare =>
      have hself : (∀ c ∈ ([m] : List Compare), ¬ c.TargetsValue) ↔ ¬ Compare.TargetsValue m :=
        List.forall_mem_singleton
      exact (Compare.format_restores_iff m).trans hself.symm
  | requestOp => exact RequestOp.format_restores_iff m
  | txnRequest => exact TxnRequest.format_restores_iff m
  | responseHeader => exact iff_of_true (ResponseHeader.format_restores m) nofun
  | keyValue => exact iff_of_true (KeyValue.format_restores m) nofun
  | putRequest => exact iff_of_true (PutRequest.format_restores m) nofun
  | putResponse => exact iff_of_true (PutResponse.format_restores m) nofun
  | deleteRangeRequest => exact iff_of_true (DeleteRangeRequest.format_restores m) nofun
  | deleteRangeResponse => exact iff_of_true (DeleteRangeResponse.format_restores m) nofun
  | rangeRequest => exact iff_of_true (RangeRequest.format_restores m) nofun
  | rangeResponse => exact iff_of_true (RangeResponse.format_restores m) nofun
  | responseOp => exact iff_of_true (ResponseOp.format_restores m) nofun
  | txnResponse => exact iff_of_true (TxnResponse.format_restores m) nofun

end MessageKind

end LedgerAudit.Message
