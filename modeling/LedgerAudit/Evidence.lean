import LedgerAudit.Digest
import LedgerAudit.Json.Record

/-!
# Commit evidence

Commit evidence is a text `ce:<term>.<revision>:<nonce>`. It is hashed as it stands, and where it
has this form it names a position in the ledger.
-/

namespace LedgerAudit

structure TxId where
  term : UInt64
  revision : UInt64
deriving DecidableEq, Repr

namespace TxId

def layout : Json.Layout TxId where
  title := "TxId"
  blank := ⟨0, 0⟩
  fields := [
    { Json.FieldSpec.ofCodec "term" none .natural term (fun a t => { t with term := a }) with
      required := true },
    { Json.FieldSpec.ofCodec "revision" none .natural revision (fun a t => { t with revision := a })
      with required := true }]

def codec : Json.Codec TxId := layout.codec

end TxId

structure CommitEvidence where
  text : String
deriving DecidableEq, Repr

namespace CommitEvidence

def digest (e : CommitEvidence) : Digest := .hash (Bytes.ofText e.text)

/-- Splits a text at the first character of this kind, which belongs to neither part. -/
def splitAt? (mark : Char) (cs : List Char) : Option (List Char × List Char) :=
  match cs.dropWhile (· ≠ mark) with
  | [] => none
  | _ :: rest => some (cs.takeWhile (· ≠ mark), rest)

def afterPrefix? : List Char → Option (List Char)
  | 'c' :: 'e' :: ':' :: rest => some rest
  | _ => none

def number? (cs : List Char) : Option UInt64 := (Numeral.read UInt64 cs).toOption

/-- The position that the evidence names, if it has the form for it. -/
def txId? (e : CommitEvidence) : Option TxId := do
  let rest ← afterPrefix? e.text.toList
  let (position, nonce) ← splitAt? ':' rest
  if nonce.isEmpty || !nonce.all fun c => (Hex.value? c).isSome then none
  else
    let (term, revision) ← splitAt? '.' position
    return ⟨← number? term, ← number? revision⟩

end CommitEvidence

end LedgerAudit
