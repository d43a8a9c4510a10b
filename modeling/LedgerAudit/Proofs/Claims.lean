import LedgerAudit.Operation
import LedgerAudit.Proofs.Message.Nested

/-!
# What the claims tell

The bytes of the claims tell the operation but for the header of its response. Headers deeper down,
in the answers inside a transaction, are part of the claims.
-/

namespace LedgerAudit.Operation

open Protobuf (Record)

/-- Operations of one kind with one request, and with one response but for its own header. -/
inductive SameUpToHeader : Operation → Operation → Prop
  | put (request : PutRequest) (header header' : Option ResponseHeader) (prevKv : Option KeyValue) :
    SameUpToHeader (.put request ⟨header, prevKv⟩) (.put request ⟨header', prevKv⟩)
  | deleteRange (request : DeleteRangeRequest) (header header' : Option ResponseHeader)
      (deleted : Int64) (prevKvs : List KeyValue) :
    SameUpToHeader (.deleteRange request ⟨header, deleted, prevKvs⟩)
      (.deleteRange request ⟨header', deleted, prevKvs⟩)
  | txn (request : TxnRequest) (header header' : Option ResponseHeader) (succeeded : Bool)
      (responses : List ResponseOp) :
    SameUpToHeader (.txn request ⟨header, succeeded, responses⟩)
      (.txn request ⟨header', succeeded, responses⟩)

namespace SameUpToHeader

theorem claims_eq {a b : Operation} (h : SameUpToHeader a b) : a.claims = b.claims := by
  cases h <;> rfl

theorem claimsBytes_eq {a b : Operation} (h : SameUpToHeader a b) :
    a.claimsBytes = b.claimsBytes := by
  rw [claimsBytes, claimsBytes, h.claims_eq]

theorem of_claims_eq {a b : Operation} (h : a.claims = b.claims) : SameUpToHeader a b := by
  cases a <;> cases b <;> simp only [claims, List.cons.injEq, Record.mk.injEq,
    Protobuf.Payload.bytes.injEq, and_true, true_and] at h
  case put.put request response request' response' =>
    obtain rfl := PutRequest.format_faithful h.1
    have hresponse := PutResponse.format_faithful h.2
    obtain ⟨header, prevKv⟩ := response
    obtain ⟨header', prevKv'⟩ := response'
    obtain rfl : prevKv = prevKv' := by simpa [PutResponse.withoutHeader] using hresponse
    exact .put request header header' prevKv
  case deleteRange.deleteRange request response request' response' =>
    obtain rfl := DeleteRangeRequest.format_faithful h.1
    have hresponse := DeleteRangeResponse.format_faithful h.2
    obtain ⟨header, deleted, prevKvs⟩ := response
    obtain ⟨header', deleted', prevKvs'⟩ := response'
    obtain ⟨rfl, rfl⟩ : deleted = deleted' ∧ prevKvs = prevKvs' := by
      simpa [DeleteRangeResponse.withoutHeader] using hresponse
    exact .deleteRange request header header' deleted prevKvs
  case txn.txn request response request' response' =>
    obtain rfl := TxnRequest.format_faithful h.1
    have hresponse := TxnResponse.format_faithful h.2
    obtain ⟨header, succeeded, responses⟩ := response
    obtain ⟨header', succeeded', responses'⟩ := response'
    obtain ⟨rfl, rfl⟩ : succeeded = succeeded' ∧ responses = responses' := by
      simpa [TxnResponse.withoutHeader] using hresponse
    exact .txn request header header' succeeded responses
  -- Operations of two kinds have their claims under different tags.
  all_goals simp at h

theorem of_claimsBytes_eq {a b : Operation} (h : a.claimsBytes = b.claimsBytes) :
    SameUpToHeader a b :=
  of_claims_eq (Record.encodeAll_injective h)

end SameUpToHeader

/-- The bytes of the claims tell the kind, the request and the response but for its header. -/
theorem claimsBytes_eq_claimsBytes_iff (a b : Operation) :
    a.claimsBytes = b.claimsBytes ↔ SameUpToHeader a b :=
  ⟨SameUpToHeader.of_claimsBytes_eq, SameUpToHeader.claimsBytes_eq⟩

end LedgerAudit.Operation
