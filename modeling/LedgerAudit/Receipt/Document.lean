import LedgerAudit.Message.Header
import LedgerAudit.Receipt.Basic
import LedgerAudit.Rejection

/-!
# Receipt documents

A receipt is served as a JSON document, alone or in an envelope with a response header. Every part
of the document may be absent; a receipt is made of it only when all of them are there.
-/

namespace LedgerAudit

/-- An entry of a proof list as it stands: an object whose only key should be the side. -/
abbrev StepDocument := Json.Members

structure LeafDocument where
  writeSetDigest : Option String
  commitEvidence : Option String
  claimsDigest : Option String

structure TxReceiptDocument where
  leafComponents : Option LeafDocument
  proof : Option (List StepDocument)

structure ReceiptDocument where
  cert : Option String
  signature : Option String
  nodeId : Option String
  txReceipt : Option TxReceiptDocument

/-- A receipt document under the header of the response that brought it. -/
structure Envelope where
  header : Option ResponseHeader
  receipt : ReceiptDocument

open Json (Codec FieldSpec Layout)

namespace StepDocument

def codec : Codec StepDocument := .members

/-- The step, if there is exactly one key, a side, over the text of a digest. -/
def toStep : StepDocument → Except StepFault ProofStep
  | [] => .error .noTag
  | [(tag, v)] =>
    match Direction.ofName? tag, v with
    | none, _ => .error (.unknownTag tag)
    | some direction, .string hex =>
      match Digest.ofHex hex with
      | .ok sibling => .ok ⟨direction, sibling⟩
      | .error fault => .error (.digest fault)
    | some _, _ => .error (.notText tag)
  | several => .error (.severalTags (several.map Prod.fst))

end StepDocument

namespace LeafDocument

def layout : Layout LeafDocument where
  title := "LeafComponentsJson"
  blank := ⟨none, none, none⟩
  fields := [
    .ofCodec "writeSetDigest" (some "write_set_digest") Codec.text.optional writeSetDigest
      fun a d => { d with writeSetDigest := a },
    .ofCodec "commitEvidence" (some "commit_evidence") Codec.text.optional commitEvidence
      fun a d => { d with commitEvidence := a },
    .ofCodec "claimsDigest" (some "claims_digest") Codec.text.optional claimsDigest
      fun a d => { d with claimsDigest := a }]

def readDigest (part hex : String) : Except ReceiptFault Digest :=
  match Digest.ofHex hex with
  | .ok d => .ok d
  | .error fault => .error (.leafDigest part fault)

def toComponents (d : LeafDocument) : Except ReceiptFault LeafComponents := do
  let writeSetDigest ← ReceiptFault.require "leafComponents.writeSetDigest" d.writeSetDigest
  let commitEvidence ← ReceiptFault.require "leafComponents.commitEvidence" d.commitEvidence
  let claimsDigest ← ReceiptFault.require "leafComponents.claimsDigest" d.claimsDigest
  return {
    writeSetDigest := ← readDigest "writeSetDigest" writeSetDigest
    commitEvidence := ⟨commitEvidence⟩
    claimsDigest := ← readDigest "claimsDigest" claimsDigest }

end LeafDocument

namespace TxReceiptDocument

def layout : Layout TxReceiptDocument where
  title := "TxReceiptJson"
  blank := ⟨none, none⟩
  fields := [
    .ofCodec "leafComponents" (some "leaf_components") LeafDocument.layout.codec.optional
      leafComponents fun a d => { d with leafComponents := a },
    .ofCodec "proof" none StepDocument.codec.list.optional proof
      fun a d => { d with proof := a }]

end TxReceiptDocument

namespace ReceiptDocument

def blank : ReceiptDocument := ⟨none, none, none, none⟩

def layout : Layout ReceiptDocument where
  title := "ReceiptJson"
  blank := blank
  fields := [
    .ofCodec "cert" none Codec.text.optional cert fun a d => { d with cert := a },
    .ofCodec "signature" none Codec.text.optional signature fun a d => { d with signature := a },
    .ofCodec "nodeId" (some "node_id") Codec.text.optional nodeId
      fun a d => { d with nodeId := a },
    .ofCodec "txReceipt" (some "tx_receipt") TxReceiptDocument.layout.codec.optional txReceipt
      fun a d => { d with txReceipt := a }]

def codec : Codec ReceiptDocument := layout.codec

/-- The bytes of the signature text, which may stand between blanks. -/
def readSignature (text : String) : Except ReceiptFault Bytes :=
  let bare := String.ofList (Text.trim text.toList)
  match Base64.standard.decode (Bytes.ofText bare) with
  | .ok bytes => .ok bytes
  | .error fault => .error (.signatureText fault)

def readProof (index : Nat) : List StepDocument → Except ReceiptFault (List ProofStep)
  | [] => .ok []
  | entry :: rest =>
    match entry.toStep with
    | .error fault => .error (.step index fault)
    | .ok step => do
      let steps ← readProof (index + 1) rest
      return step :: steps

/-- Decodes every digest and the signature. Nothing is filled in. -/
def toReceipt (d : ReceiptDocument) : Except ReceiptFault Receipt := do
  let nodeId ← ReceiptFault.require "nodeId" d.nodeId
  let cert ← ReceiptFault.require "cert" d.cert
  let signature ← ReceiptFault.require "signature" d.signature
  let txReceipt ← ReceiptFault.require "txReceipt" d.txReceipt
  let leafComponents ← ReceiptFault.require "txReceipt.leafComponents" txReceipt.leafComponents
  let proof ← ReceiptFault.require "txReceipt.proof" txReceipt.proof
  let signature ← readSignature signature
  let proof ← readProof 0 proof
  return {
    nodeId := nodeId
    cert := Bytes.ofText cert
    signature := signature
    leafComponents := ← leafComponents.toComponents
    proof := proof }

end ReceiptDocument

namespace Envelope

def layout : Layout Envelope where
  title := "GetReceiptResponse"
  blank := ⟨none, ReceiptDocument.blank⟩
  fields := [
    .ofCodec "header" none ResponseHeader.format.codec.optional header
      fun a e => { e with header := a },
    { FieldSpec.ofCodec "receipt" none ReceiptDocument.codec receipt
        (fun a e => { e with receipt := a }) with required := true }]

def codec : Codec Envelope := layout.codec

end Envelope

namespace ReceiptDocument

/-- Reads a document from a value: an envelope if there is an object under `receipt`. -/
def ofJson (v : Json) : Except ReceiptFault ReceiptDocument :=
  match v.member? "receipt" with
  | some (.object _) =>
    match Envelope.codec.read v with
    | .ok envelope => .ok envelope.receipt
    | .error fault => .error (.envelope fault)
  | _ =>
    match codec.read v with
    | .ok document => .ok document
    | .error fault => .error (.document fault)

def parse (text : String) : Except ReceiptFault ReceiptDocument :=
  match Json.parse text with
  | .error fault => .error (.notJson fault)
  | .ok v => ofJson v

end ReceiptDocument

def Receipt.parse (text : String) : Except ReceiptFault Receipt := do
  (← ReceiptDocument.parse text).toReceipt

end LedgerAudit
