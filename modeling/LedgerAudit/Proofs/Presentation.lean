import LedgerAudit.Operation
import LedgerAudit.Proofs.Message.Rewriting

/-!
# The presentation of an operation

A request and a response may be presented in many ways, and the operation that is read from them,
with all that is claimed by it, is the same. A message with both spellings of a field is no
presentation of any operation.
-/

namespace LedgerAudit

open Message (Format MessageKind Rewrites SpelledTwice)
open Message.Field (plain)
open Relation (ReflTransGen)

namespace OperationKind

def requestKind : OperationKind → MessageKind
  | put => .putRequest
  | deleteRange => .deleteRangeRequest
  | txn => .txnRequest

def responseKind : OperationKind → MessageKind
  | put => .putResponse
  | deleteRange => .deleteRangeResponse
  | txn => .txnResponse

end OperationKind

namespace Operation

def pair : (kind : OperationKind) → kind.requestKind.Carrier → kind.responseKind.Carrier → Operation
  | .put, a, b => .put a b
  | .deleteRange, a, b => .deleteRange a b
  | .txn, a, b => .txn a b

theorem readPair_eq_ok_iff {α β : Type} {kind : OperationKind} {f : Format α} {g : Format β}
    {request response : Json} {a : α} {b : β} :
    readPair kind f g request response = .ok (a, b) ↔
      f.read request = .ok a ∧ g.read response = .ok b := by
  rw [readPair]
  cases f.read request with
  | error fault => simp
  | ok a' => cases g.read response <;> simp

/-- An operation is read when its two messages are. -/
theorem read_eq_ok_iff {kind : OperationKind} {request response : Json} {op : Operation} :
    read kind request response = .ok op ↔
      ∃ a b, (kind.requestKind.format.codec.read request = .ok a ∧
        kind.responseKind.format.codec.read response = .ok b) ∧ pair kind a b = op := by
  have hread : read kind request response =
      (readPair kind kind.requestKind.format kind.responseKind.format request response).map
        fun p => pair kind p.1 p.2 := by
    cases kind <;> rfl
  rw [hread, Except.map_eq_ok_iff, Prod.exists]
  simp only [readPair_eq_ok_iff, Format.read]

/-- An operation does not depend on how its messages are presented, and it is not read at all from
a message that gives both spellings of a field. -/
theorem read_presentation (kind : OperationKind) (request response : Json) :
    (∀ op request' response', read kind request response = .ok op →
      ReflTransGen (Rewrites (.message kind.requestKind)) request request' →
      ReflTransGen (Rewrites (.message kind.responseKind)) response response' →
      read kind request' response' = .ok op) ∧
    (SpelledTwice (.message kind.requestKind) request ∨
      SpelledTwice (.message kind.responseKind) response →
      ∃ fault, read kind request response = .error fault) := by
  refine ⟨fun op request' response' hread hrequest hresponse => ?_, fun htwice => ?_⟩
  · obtain ⟨a, b, ⟨ha, hb⟩, hpair⟩ := read_eq_ok_iff.mp hread
    exact read_eq_ok_iff.mpr ⟨a, b, ⟨Message.keeps_of_reflTransGen hrequest a ha,
      Message.keeps_of_reflTransGen hresponse b hb⟩, hpair⟩
  · cases hread : read kind request response with
    | error fault => exact ⟨fault, rfl⟩
    | ok op =>
        obtain ⟨a, b, ⟨ha, hb⟩, -⟩ := read_eq_ok_iff.mp hread
        rcases htwice with htwice | htwice
        · exact absurd ha (htwice.read_ne_ok a)
        · exact absurd hb (htwice.read_ne_ok b)

theorem read_presentation_nested :
    let request (arm : String) (lease : Json) : Json :=
      .object [("success", .array [.object [(arm, .object [("lease", lease)])]])]
    let twice : Json := .object [("header", .object [("raftTerm", .null), ("raft_term", .null)])]
    let op : Operation :=
      .txn ⟨[], [.put ⟨[], [], 5, false, false, false⟩], []⟩ ⟨none, false, []⟩
    read .txn (request "requestPut" (.integer 5)) (.object []) = .ok op ∧
      read .txn (request "request_put" (.string " 5")) (.object [("header", .null)]) = .ok op ∧
      ∃ fault, read .txn (request "requestPut" (.integer 5)) twice = .error fault := by
  intro request twice op
  have hread : read .txn (request "requestPut" (.integer 5)) (.object []) = .ok op := rfl
  -- inside out: the lease of the put, the arm that holds it, and the key of the arm
  have hfive : Numeral.Denotes ['5'] 5 :=
    .bare ⟨by decide, List.forall_mem_singleton.mpr rfl⟩
  have hnumber : Rewrites .int64 (.integer 5) (.string " 5") := .respell (.int64 hfive ⟨5, rfl⟩)
  have hlease : plain "lease" .int64 ∈ MessageKind.putRequest.fields := by decide
  have harm : plain "requestPut" (.optional .putRequest) ∈ MessageKind.requestOp.fields := by
    decide
  have hput : Rewrites (.message .requestOp)
      (.object [("requestPut", .object [("lease", .integer 5)])])
      (.object [("requestPut", .object [("lease", .string " 5")])]) :=
    .member harm (by decide) (.present (.member hlease (by decide) hnumber))
  have hrename : Rewrites (.message .requestOp)
      (.object [("requestPut", .object [("lease", .string " 5")])])
      (.object [("request_put", .object [("lease", .string " 5")])]) :=
    .rename harm (by decide) (by decide)
  have hsuccess : plain "success" (.repeated .requestOp) ∈ MessageKind.txnRequest.fields := by
    decide
  have hrequest {v w : Json} (h : Rewrites (.message .requestOp) v w) :
      Rewrites (.message .txnRequest) (.object [("success", .array [v])])
        (.object [("success", .array [w])]) :=
    .member hsuccess (by decide) (.item (i := 0) rfl h)
  have hheader : plain "header" (.optional .responseHeader) ∈ MessageKind.txnResponse.fields := by
    decide
  have hresponse : Rewrites (.message .txnResponse) (.object []) (.object [("header", .null)]) :=
    .supplyNull hheader rfl (by decide) nofun
  have hterm : plain "raftTerm" .uint64 ∈ MessageKind.responseHeader.fields := by decide
  have htwice : SpelledTwice (.message .txnResponse) twice := by
    refine .member hheader (.head _) (.head _) (.present ?_)
    exact .here hterm (by decide) (by decide) (by decide) (.head _) (.tail _ (.head _))
  exact ⟨hread, (read_presentation .txn _ _).1 op _ _ hread
    (.tail (.single (hrequest hput)) (hrequest hrename)) (.single hresponse),
    (read_presentation .txn _ _).2 (.inr htwice)⟩

end Operation

end LedgerAudit
