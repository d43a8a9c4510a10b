import LedgerAudit.Message.Header
import LedgerAudit.Message.KeyValue

/-!
# Reading a range of keys

Reads appear inside transactions only: a read by itself commits nothing.
-/

namespace LedgerAudit

structure RangeRequest where
  key : Bytes
  rangeEnd : Bytes
  limit : Int64
  revision : Int64
  sortOrder : Int32
  sortTarget : Int32
  serializable : Bool
  keysOnly : Bool
  countOnly : Bool
  minModRevision : Int64
  maxModRevision : Int64
  minCreateRevision : Int64
  maxCreateRevision : Int64
deriving DecidableEq, Repr

structure RangeResponse where
  header : Option ResponseHeader
  kvs : List KeyValue
  more : Bool
  count : Int64
deriving DecidableEq, Repr

open Message

namespace RangeRequest

def sortOrders : List String := ["NONE", "ASCEND", "DESCEND"]

def sortTargets : List String := ["KEY", "VERSION", "CREATE", "MOD", "VALUE"]

def schema : Schema RangeRequest where
  title := "RangeRequest"
  blank := ⟨[], [], 0, 0, 0, 0, false, false, false, 0, 0, 0, 0⟩
  fields := [
    .plain 1 "key" .bytes key fun a m => { m with key := a },
    .spelled 2 "rangeEnd" "range_end" .bytes rangeEnd fun a m => { m with rangeEnd := a },
    .plain 3 "limit" .int64 limit fun a m => { m with limit := a },
    .plain 4 "revision" .int64 revision fun a m => { m with revision := a },
    .spelled 5 "sortOrder" "sort_order" (.enumeration sortOrders) sortOrder
      fun a m => { m with sortOrder := a },
    .spelled 6 "sortTarget" "sort_target" (.enumeration sortTargets) sortTarget
      fun a m => { m with sortTarget := a },
    .plain 7 "serializable" .bool serializable fun a m => { m with serializable := a },
    .spelled 8 "keysOnly" "keys_only" .bool keysOnly fun a m => { m with keysOnly := a },
    .spelled 9 "countOnly" "count_only" .bool countOnly fun a m => { m with countOnly := a },
    .spelled 10 "minModRevision" "min_mod_revision" .int64 minModRevision
      fun a m => { m with minModRevision := a },
    .spelled 11 "maxModRevision" "max_mod_revision" .int64 maxModRevision
      fun a m => { m with maxModRevision := a },
    .spelled 12 "minCreateRevision" "min_create_revision" .int64 minCreateRevision
      fun a m => { m with minCreateRevision := a },
    .spelled 13 "maxCreateRevision" "max_create_revision" .int64 maxCreateRevision
      fun a m => { m with maxCreateRevision := a }]

def format : Format RangeRequest := schema.format

end RangeRequest

namespace RangeResponse

def schema : Schema RangeResponse where
  title := "RangeResponse"
  blank := ⟨none, [], false, 0⟩
  fields := [
    .plain 1 "header" (.message ResponseHeader.format) header fun a m => { m with header := a },
    .plain 2 "kvs" (.repeated KeyValue.format) kvs fun a m => { m with kvs := a },
    .plain 3 "more" .bool more fun a m => { m with more := a },
    .plain 4 "count" .int64 count fun a m => { m with count := a }]

def format : Format RangeResponse := schema.format

end RangeResponse

end LedgerAudit
