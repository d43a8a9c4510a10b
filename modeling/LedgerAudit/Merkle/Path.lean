import LedgerAudit.Digest
import LedgerAudit.Json.Codec

/-!
# Inclusion proofs

A proof is the list of siblings on the way from a leaf to the root, each with its side, the one
next to the leaf first.
-/

namespace LedgerAudit

inductive Direction
  | left
  | right
deriving DecidableEq, Repr

namespace Direction

def name : Direction → String
  | .left => "left"
  | .right => "right"

def all : List Direction := [.left, .right]

def ofName? (text : String) : Option Direction := all.find? fun d => d.name == text

def opposite : Direction → Direction
  | .left => .right
  | .right => .left

def codec : Json.Codec Direction := .variant (all.map fun d => (d.name, d)) name

@[simp] theorem ofName?_name (d : Direction) : ofName? d.name = some d := by cases d <;> rfl

end Direction

structure ProofStep where
  direction : Direction
  sibling : Digest
deriving DecidableEq

namespace ProofStep

/-- The 64 bytes that are hashed into the parent. -/
def preimage (step : ProofStep) (current : Digest) : Bytes :=
  match step.direction with
  | .left => step.sibling.bytes ++ current.bytes
  | .right => current.bytes ++ step.sibling.bytes

def parent (step : ProofStep) (current : Digest) : Digest := .hash (step.preimage current)

@[simp] theorem length_preimage (step : ProofStep) (current : Digest) :
    (step.preimage current).length = 64 := by
  unfold preimage
  split <;> simp [Digest.length_bytes]

end ProofStep

/-- The root that a proof leads to from a leaf. -/
def foldRoot (leaf : Digest) (proof : List ProofStep) : Digest :=
  proof.foldl (fun current step => step.parent current) leaf

/-- The digests on the way, from the leaf to the root. -/
def runningHashes (leaf : Digest) : List ProofStep → List Digest
  | [] => [leaf]
  | step :: rest => leaf :: runningHashes (step.parent leaf) rest

@[simp] theorem foldRoot_nil (leaf : Digest) : foldRoot leaf [] = leaf := rfl

@[simp] theorem foldRoot_cons (leaf : Digest) (step : ProofStep) (rest : List ProofStep) :
    foldRoot leaf (step :: rest) = foldRoot (step.parent leaf) rest := rfl

@[simp] theorem foldRoot_append (leaf : Digest) (near far : List ProofStep) :
    foldRoot leaf (near ++ far) = foldRoot (foldRoot leaf near) far := List.foldl_append

end LedgerAudit
