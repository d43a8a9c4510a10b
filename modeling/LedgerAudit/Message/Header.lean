import LedgerAudit.Message.Schema

/-!
# Response headers

Every response carries a header. It is not part of what a receipt commits to.
-/

namespace LedgerAudit

structure ResponseHeader where
  clusterId : UInt64
  memberId : UInt64
  revision : Int64
  raftTerm : UInt64
  committedRevision : Int64
  committedRaftTerm : UInt64
deriving DecidableEq, Repr

namespace ResponseHeader

open Message

def schema : Schema ResponseHeader where
  title := "ResponseHeader"
  blank := ⟨0, 0, 0, 0, 0, 0⟩
  fields := [
    .spelled 1 "clusterId" "cluster_id" .uint64 clusterId fun a m => { m with clusterId := a },
    .spelled 2 "memberId" "member_id" .uint64 memberId fun a m => { m with memberId := a },
    .plain 3 "revision" .int64 revision fun a m => { m with revision := a },
    .spelled 4 "raftTerm" "raft_term" .uint64 raftTerm fun a m => { m with raftTerm := a },
    .spelled 5 "committedRevision" "committed_revision" .int64 committedRevision
      fun a m => { m with committedRevision := a },
    .spelled 6 "committedRaftTerm" "committed_raft_term" .uint64 committedRaftTerm
      fun a m => { m with committedRaftTerm := a }]

def format : Format ResponseHeader := schema.format

end ResponseHeader

end LedgerAudit
