import LedgerAudit.Message.Schema

/-!
# Comparisons

A comparison guards a transaction. What it compares with is a choice of one operand, whose arms
stand beside the other fields in both forms.
-/

namespace LedgerAudit

namespace Compare

inductive Operand
  | version (n : Int64)
  | createRevision (n : Int64)
  | modRevision (n : Int64)
  | value (b : Bytes)
  | lease (n : Int64)
deriving DecidableEq, Repr

structure Flat where
  result : Int32
  target : Int32
  key : Bytes
  version : Option Int64
  createRevision : Option Int64
  modRevision : Option Int64
  value : Option Bytes
  lease : Option Int64
  rangeEnd : Bytes
deriving DecidableEq, Repr

end Compare

structure Compare where
  result : Int32
  target : Int32
  key : Bytes
  operand : Option Compare.Operand
  rangeEnd : Bytes
deriving DecidableEq, Repr

namespace Compare

open Message

def results : List String := ["EQUAL", "GREATER", "LESS", "NOT_EQUAL"]

def targets : List String := ["VERSION", "CREATE", "MOD", "VALUE", "LEASE"]

/-- An arm that holds a number: read in every spelling, written as a JSON number. -/
def numberArm (tag : Nat) (name : String) (alternate : Option String)
    (get : Flat → Option Int64) (set : Option Int64 → Flat → Flat) : FieldSpec Flat :=
  .scalarArm tag name alternate (.fixedWidth Int64) (fun n => .integer n.toInt)
    Kind.int64Payload get set

/-- The arm that holds bytes: read from base64, written as an array of numbers. -/
def bytesArm (tag : Nat) (name : String) (get : Flat → Option Bytes)
    (set : Option Bytes → Flat → Flat) : FieldSpec Flat :=
  .scalarArm tag name none .base64 (fun b => .array (b.map fun x => .integer x.toNat))
    .bytes get set

def Flat.schema : Schema Flat where
  title := "CompareJson"
  blank := ⟨0, 0, [], none, none, none, none, none, []⟩
  fields := [
    .plain 1 "result" (.enumeration results) Flat.result fun a m => { m with result := a },
    .plain 2 "target" (.enumeration targets) Flat.target fun a m => { m with target := a },
    .plain 3 "key" .bytes Flat.key fun a m => { m with key := a },
    numberArm 4 "version" none Flat.version fun a m => { m with version := a },
    numberArm 5 "createRevision" (some "create_revision") Flat.createRevision
      fun a m => { m with createRevision := a },
    numberArm 6 "modRevision" (some "mod_revision") Flat.modRevision
      fun a m => { m with modRevision := a },
    bytesArm 7 "value" Flat.value fun a m => { m with value := a },
    numberArm 8 "lease" none Flat.lease fun a m => { m with lease := a },
    .spelled 64 "rangeEnd" "range_end" .bytes Flat.rangeEnd fun a m => { m with rangeEnd := a }]

/-- The arms that are set, in the order of their tags. -/
def Flat.operands (m : Flat) : List Operand :=
  [m.version.map .version, m.createRevision.map .createRevision, m.modRevision.map .modRevision,
    m.value.map .value, m.lease.map .lease].filterMap id

/-- At most one arm may be set. -/
def Flat.collapse (m : Flat) : Except Json.Fault Compare :=
  match m.operands with
  | [] => .ok ⟨m.result, m.target, m.key, none, m.rangeEnd⟩
  | [operand] => .ok ⟨m.result, m.target, m.key, some operand, m.rangeEnd⟩
  | _ => .error (.tooManyArms "compare" "target value")

def flat (c : Compare) : Flat :=
  let bare : Flat := ⟨c.result, c.target, c.key, none, none, none, none, none, c.rangeEnd⟩
  match c.operand with
  | none => bare
  | some (.version n) => { bare with version := some n }
  | some (.createRevision n) => { bare with createRevision := some n }
  | some (.modRevision n) => { bare with modRevision := some n }
  | some (.value b) => { bare with value := some b }
  | some (.lease n) => { bare with lease := some n }

def format : Format Compare := Flat.schema.format.via flat Flat.collapse

end Compare

end LedgerAudit
