import LedgerAudit.Message.Compare
import LedgerAudit.Message.DeleteRange
import LedgerAudit.Message.Put
import LedgerAudit.Message.Range

/-!
# Transactions

A transaction runs one of two lists of operations, and an operation may be a transaction again.
The format of an operation is built level by level: the format at a level knows operations that
are nested less deeply, and every operation and every JSON value has a level that is enough.
-/

namespace LedgerAudit

/-- An operation of a transaction; it may be left unset. -/
inductive RequestOp
  | unset
  | range (request : RangeRequest)
  | put (request : PutRequest)
  | deleteRange (request : DeleteRangeRequest)
  | txn (compare : List Compare) (success failure : List RequestOp)

structure TxnRequest where
  compare : List Compare
  success : List RequestOp
  failure : List RequestOp

/-- The answer to an operation of a transaction. -/
inductive ResponseOp
  | unset
  | range (response : RangeResponse)
  | put (response : PutResponse)
  | deleteRange (response : DeleteRangeResponse)
  | txn (header : Option ResponseHeader) (succeeded : Bool) (responses : List ResponseOp)

structure TxnResponse where
  header : Option ResponseHeader
  succeeded : Bool
  responses : List ResponseOp

open Message

namespace TxnRequest

def schemaOver (op : Format RequestOp) : Schema TxnRequest where
  title := "TxnRequest"
  blank := ⟨[], [], []⟩
  fields := [
    .plain 1 "compare" (.repeated Compare.format) compare fun a m => { m with compare := a },
    .plain 2 "success" (.repeated op) success fun a m => { m with success := a },
    .plain 3 "failure" (.repeated op) failure fun a m => { m with failure := a }]

end TxnRequest

namespace RequestOp

mutual

/-- The number of operations on the longest way inwards. -/
def depth : RequestOp → Nat
  | .txn _ success failure => max (depthOfAll success) (depthOfAll failure) + 1
  | _ => 1

def depthOfAll : List RequestOp → Nat
  | [] => 0
  | op :: rest => max (depth op) (depthOfAll rest)

end

/-- The arms of the choice, side by side. -/
structure Flat where
  range : Option RangeRequest
  put : Option PutRequest
  deleteRange : Option DeleteRangeRequest
  txn : Option TxnRequest

def Flat.blank : Flat := ⟨none, none, none, none⟩

def Flat.schemaOver (op : Format RequestOp) : Schema Flat where
  title := "RequestOpJson"
  blank := blank
  fields := [
    .messageArm 1 "requestRange" "request_range" RangeRequest.format Flat.range
      fun a m => { m with range := a },
    .messageArm 2 "requestPut" "request_put" PutRequest.format Flat.put
      fun a m => { m with put := a },
    .messageArm 3 "requestDeleteRange" "request_delete_range" DeleteRangeRequest.format
      Flat.deleteRange fun a m => { m with deleteRange := a },
    .messageArm 4 "requestTxn" "request_txn" (TxnRequest.schemaOver op).format Flat.txn
      fun a m => { m with txn := a }]

def ofTxn (t : TxnRequest) : RequestOp := .txn t.compare t.success t.failure

/-- The arms that are set, in the order of their tags. -/
def Flat.arms (m : Flat) : List RequestOp :=
  [m.range.map RequestOp.range, m.put.map RequestOp.put,
    m.deleteRange.map RequestOp.deleteRange, m.txn.map ofTxn].filterMap id

/-- At most one arm may be set. -/
def Flat.collapse (m : Flat) : Except Json.Fault RequestOp :=
  match m.arms with
  | [] => .ok .unset
  | [op] => .ok op
  | _ => .error (.tooManyArms "request op" "request")

def flat : RequestOp → Flat
  | .unset => Flat.blank
  | .range request => { Flat.blank with range := some request }
  | .put request => { Flat.blank with put := some request }
  | .deleteRange request => { Flat.blank with deleteRange := some request }
  | .txn compare success failure => { Flat.blank with txn := some ⟨compare, success, failure⟩ }

/-- The format of operations that are nested at most `level` deep. -/
def formatAt : (level : Nat) → Format RequestOp
  | 0 => .constant .unset
  | level + 1 => (Flat.schemaOver (formatAt level)).format.via flat Flat.collapse

def format : Format RequestOp where
  codec :=
    { read := fun v => (formatAt v.height).read v
      write := fun op => (formatAt op.depth).toJson op }
  records op := (formatAt op.depth).records op

end RequestOp

namespace TxnRequest

def schema : Schema TxnRequest := schemaOver RequestOp.format

def format : Format TxnRequest := schema.format

end TxnRequest

namespace TxnResponse

def schemaOver (op : Format ResponseOp) : Schema TxnResponse where
  title := "TxnResponse"
  blank := ⟨none, false, []⟩
  fields := [
    .plain 1 "header" (.message ResponseHeader.format) header fun a m => { m with header := a },
    .plain 2 "succeeded" .bool succeeded fun a m => { m with succeeded := a },
    .plain 3 "responses" (.repeated op) responses fun a m => { m with responses := a }]

end TxnResponse

namespace ResponseOp

mutual

def depth : ResponseOp → Nat
  | .txn _ _ responses => depthOfAll responses + 1
  | _ => 1

def depthOfAll : List ResponseOp → Nat
  | [] => 0
  | op :: rest => max (depth op) (depthOfAll rest)

end

structure Flat where
  range : Option RangeResponse
  put : Option PutResponse
  deleteRange : Option DeleteRangeResponse
  txn : Option TxnResponse

def Flat.blank : Flat := ⟨none, none, none, none⟩

def Flat.schemaOver (op : Format ResponseOp) : Schema Flat where
  title := "ResponseOpJson"
  blank := blank
  fields := [
    .messageArm 1 "responseRange" "response_range" RangeResponse.format Flat.range
      fun a m => { m with range := a },
    .messageArm 2 "responsePut" "response_put" PutResponse.format Flat.put
      fun a m => { m with put := a },
    .messageArm 3 "responseDeleteRange" "response_delete_range" DeleteRangeResponse.format
      Flat.deleteRange fun a m => { m with deleteRange := a },
    .messageArm 4 "responseTxn" "response_txn" (TxnResponse.schemaOver op).format Flat.txn
      fun a m => { m with txn := a }]

def ofTxn (t : TxnResponse) : ResponseOp := .txn t.header t.succeeded t.responses

def Flat.arms (m : Flat) : List ResponseOp :=
  [m.range.map ResponseOp.range, m.put.map ResponseOp.put,
    m.deleteRange.map ResponseOp.deleteRange, m.txn.map ofTxn].filterMap id

def Flat.collapse (m : Flat) : Except Json.Fault ResponseOp :=
  match m.arms with
  | [] => .ok .unset
  | [op] => .ok op
  | _ => .error (.tooManyArms "response op" "response")

def flat : ResponseOp → Flat
  | .unset => Flat.blank
  | .range response => { Flat.blank with range := some response }
  | .put response => { Flat.blank with put := some response }
  | .deleteRange response => { Flat.blank with deleteRange := some response }
  | .txn header succeeded responses =>
    { Flat.blank with txn := some ⟨header, succeeded, responses⟩ }

def formatAt : (level : Nat) → Format ResponseOp
  | 0 => .constant .unset
  | level + 1 => (Flat.schemaOver (formatAt level)).format.via flat Flat.collapse

def format : Format ResponseOp where
  codec :=
    { read := fun v => (formatAt v.height).read v
      write := fun op => (formatAt op.depth).toJson op }
  records op := (formatAt op.depth).records op

end ResponseOp

namespace TxnResponse

def schema : Schema TxnResponse := schemaOver ResponseOp.format

def format : Format TxnResponse := schema.format

def withoutHeader (m : TxnResponse) : TxnResponse := { m with header := none }

end TxnResponse

end LedgerAudit
