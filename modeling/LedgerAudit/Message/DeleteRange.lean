import LedgerAudit.Message.Header
import LedgerAudit.Message.KeyValue

/-!
# Deleting a range of keys
-/

namespace LedgerAudit

structure DeleteRangeRequest where
  key : Bytes
  rangeEnd : Bytes
  prevKv : Bool
deriving DecidableEq, Repr

structure DeleteRangeResponse where
  header : Option ResponseHeader
  deleted : Int64
  prevKvs : List KeyValue
deriving DecidableEq, Repr

open Message

namespace DeleteRangeRequest

def schema : Schema DeleteRangeRequest where
  title := "DeleteRangeRequest"
  blank := ⟨[], [], false⟩
  fields := [
    .plain 1 "key" .bytes key fun a m => { m with key := a },
    .spelled 2 "rangeEnd" "range_end" .bytes rangeEnd fun a m => { m with rangeEnd := a },
    .spelled 3 "prevKv" "prev_kv" .bool prevKv fun a m => { m with prevKv := a }]

def format : Format DeleteRangeRequest := schema.format

end DeleteRangeRequest

namespace DeleteRangeResponse

def schema : Schema DeleteRangeResponse where
  title := "DeleteRangeResponse"
  blank := ⟨none, 0, []⟩
  fields := [
    .plain 1 "header" (.message ResponseHeader.format) header fun a m => { m with header := a },
    .plain 2 "deleted" .int64 deleted fun a m => { m with deleted := a },
    .spelled 3 "prevKvs" "prev_kvs" (.repeated KeyValue.format) prevKvs
      fun a m => { m with prevKvs := a }]

def format : Format DeleteRangeResponse := schema.format

def withoutHeader (m : DeleteRangeResponse) : DeleteRangeResponse := { m with header := none }

end DeleteRangeResponse

end LedgerAudit
