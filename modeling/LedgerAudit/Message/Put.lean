import LedgerAudit.Message.Header
import LedgerAudit.Message.KeyValue

/-!
# Writing one key
-/

namespace LedgerAudit

structure PutRequest where
  key : Bytes
  value : Bytes
  lease : Int64
  prevKv : Bool
  ignoreValue : Bool
  ignoreLease : Bool
deriving DecidableEq, Repr

structure PutResponse where
  header : Option ResponseHeader
  prevKv : Option KeyValue
deriving DecidableEq, Repr

open Message

namespace PutRequest

def schema : Schema PutRequest where
  title := "PutRequest"
  blank := ⟨[], [], 0, false, false, false⟩
  fields := [
    .plain 1 "key" .bytes key fun a m => { m with key := a },
    .plain 2 "value" .bytes value fun a m => { m with value := a },
    .plain 3 "lease" .int64 lease fun a m => { m with lease := a },
    .spelled 4 "prevKv" "prev_kv" .bool prevKv fun a m => { m with prevKv := a },
    .spelled 5 "ignoreValue" "ignore_value" .bool ignoreValue
      fun a m => { m with ignoreValue := a },
    .spelled 6 "ignoreLease" "ignore_lease" .bool ignoreLease
      fun a m => { m with ignoreLease := a }]

def format : Format PutRequest := schema.format

end PutRequest

namespace PutResponse

def schema : Schema PutResponse where
  title := "PutResponse"
  blank := ⟨none, none⟩
  fields := [
    .plain 1 "header" (.message ResponseHeader.format) header fun a m => { m with header := a },
    .spelled 2 "prevKv" "prev_kv" (.message KeyValue.format) prevKv
      fun a m => { m with prevKv := a }]

def format : Format PutResponse := schema.format

def withoutHeader (m : PutResponse) : PutResponse := { m with header := none }

end PutResponse

end LedgerAudit
