import LedgerAudit.Message.Schema

/-!
# Stored pairs
-/

namespace LedgerAudit

structure KeyValue where
  key : Bytes
  createRevision : Int64
  modRevision : Int64
  version : Int64
  value : Bytes
  lease : Int64
deriving DecidableEq, Repr

namespace KeyValue

open Message

def schema : Schema KeyValue where
  title := "KeyValue"
  blank := ⟨[], 0, 0, 0, [], 0⟩
  fields := [
    .plain 1 "key" .bytes key fun a m => { m with key := a },
    .spelled 2 "createRevision" "create_revision" .int64 createRevision
      fun a m => { m with createRevision := a },
    .spelled 3 "modRevision" "mod_revision" .int64 modRevision
      fun a m => { m with modRevision := a },
    .plain 4 "version" .int64 version fun a m => { m with version := a },
    .plain 5 "value" .bytes value fun a m => { m with value := a },
    .plain 6 "lease" .int64 lease fun a m => { m with lease := a }]

def format : Format KeyValue := schema.format

end KeyValue

end LedgerAudit
