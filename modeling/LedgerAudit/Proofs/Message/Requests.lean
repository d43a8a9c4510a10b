import LedgerAudit.Message.Compare
import LedgerAudit.Message.DeleteRange
import LedgerAudit.Message.Put
import LedgerAudit.Message.Range
import LedgerAudit.Proofs.Message.Faithful

/-!
# The bytes of requests and answers

The messages that hold no operations are told by their bytes. A comparison is as well: its arms
have tags of their own, and an arm that is set to zero is not left out.
-/

namespace LedgerAudit

open Message

theorem ResponseHeader.format_faithful : ResponseHeader.format.Faithful := by
  refine Schema.faithful (by decide) fun m n h => ?_
  cases m
  cases n
  simpa [schema] using h

theorem KeyValue.format_faithful : KeyValue.format.Faithful := by
  refine Schema.faithful (by decide) fun m n h => ?_
  cases m
  cases n
  simpa [schema] using h

theorem PutRequest.format_faithful : PutRequest.format.Faithful := by
  refine Schema.faithful (by decide) fun m n h => ?_
  cases m
  cases n
  simpa [schema] using h

theorem PutResponse.format_faithful : PutResponse.format.Faithful := by
  refine Schema.faithful (by decide) fun m n h => ?_
  cases m
  cases n
  simpa [schema, Kind.payloads_message_inj ResponseHeader.format_faithful,
    Kind.payloads_message_inj KeyValue.format_faithful] using h

theorem DeleteRangeRequest.format_faithful : DeleteRangeRequest.format.Faithful := by
  refine Schema.faithful (by decide) fun m n h => ?_
  cases m
  cases n
  simpa [schema] using h

theorem DeleteRangeResponse.format_faithful : DeleteRangeResponse.format.Faithful := by
  refine Schema.faithful (by decide) fun m n h => ?_
  cases m
  cases n
  simpa [schema, Kind.payloads_message_inj ResponseHeader.format_faithful,
    Kind.payloads_repeated_inj KeyValue.format_faithful] using h

theorem RangeRequest.format_faithful : RangeRequest.format.Faithful := by
  refine Schema.faithful (by decide) fun m n h => ?_
  cases m
  cases n
  simpa [schema] using h

theorem RangeResponse.format_faithful : RangeResponse.format.Faithful := by
  refine Schema.faithful (by decide) fun m n h => ?_
  cases m
  cases n
  simpa [schema, Kind.payloads_message_inj ResponseHeader.format_faithful,
    Kind.payloads_repeated_inj KeyValue.format_faithful] using h

namespace Compare

theorem flat_injective : Function.Injective flat := by
  intro c d h
  obtain ⟨_, _, _, operand, _⟩ := c
  obtain ⟨_, _, _, operand', _⟩ := d
  rcases operand with _ | _ | _ | _ | _ | _ <;> rcases operand' with _ | _ | _ | _ | _ | _ <;>
    simp_all [flat]

theorem flat_format_faithful : Flat.schema.format.Faithful := by
  have hbytes : Function.Injective Protobuf.Payload.bytes := fun _ _ h => by simpa using h
  refine Schema.faithful (by decide) fun m n h => ?_
  cases m
  cases n
  simpa [Flat.schema, numberArm, bytesArm, FieldSpec.payloads_scalarArm_inj hbytes,
    FieldSpec.payloads_scalarArm_inj Kind.int64Payload_injective] using h

theorem format_faithful : format.Faithful :=
  fun _ _ h => flat_injective (flat_format_faithful h)

end Compare

end LedgerAudit
