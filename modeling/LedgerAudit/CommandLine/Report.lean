import LedgerAudit.Audit.Check

/-!
# Reports

The verdict as a JSON object: what was verified, or why it was rejected and whose fault that is.
-/

namespace LedgerAudit.CommandLine

def reportJson (verdict : Except Rejection Verified) : Json :=
  match verdict with
  | .ok v => .object [
      ("verdict", .string "verified"),
      ("node_id", .string v.nodeId),
      ("leaf", Json.Codec.digest.write v.leaf),
      ("root", Json.Codec.digest.write v.root),
      ("tx_id", TxId.codec.optional.write v.txId)]
  | .error r => .object [
      ("verdict", .string "rejected"),
      ("error", .string r.kind),
      ("service_fault", .bool r.isServiceFault),
      ("message", .string r.message)]

def report (verdict : Except Rejection Verified) : String := (reportJson verdict).indented

end LedgerAudit.CommandLine
