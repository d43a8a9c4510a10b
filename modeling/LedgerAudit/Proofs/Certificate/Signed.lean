import LedgerAudit.Proofs.Audit.Substitution
import LedgerAudit.Proofs.Basic
import LedgerAudit.Proofs.Certificate.Armour
import LedgerAudit.Proofs.Certificate.Local

/-!
# What the signature of a certificate covers

The signed part of a certificate is the bytes of one sequence, and it holds the key by itself. No
packaging of these bytes, and no signature over them, leads to another key. An endorsement looks at
the same bytes, and beside them only at the algorithm and the signature.
-/

namespace LedgerAudit

variable {cert cert' : Bytes} {c c' : Certificate}

namespace Certificate

open Der

/-- The key that a signed part holds, read without the rest of the certificate. -/
def keyOfSigned? (signed : Bytes) : Option SubjectKey := do
  let (content, _) ← readSequence signed
  readSigned content

theorem keyOfSigned?_of_ofDer? {der : Bytes} (h : ofDer? der = some c) :
    keyOfSigned? c.signed = some c.subjectKey := by
  simp only [ofDer?, Option.bind_eq_bind, Option.bind_eq_some_iff, Prod.exists, Option.pure_def,
    Option.some.injEq] at h
  obtain ⟨content, -, -, signedContent, rest, hsigned, subjectKey, hkey, -, -, -, -, -, -, rfl⟩ := h
  have hreread := readSequence_local.read_taken hsigned
  simp [keyOfSigned?, hreread, hkey]

theorem parse_eq_ok_iff {der : Bytes} : parse der = .ok c ↔ ofDer? der = some c := by
  rw [parse]
  cases ofDer? der <;> simp

theorem keyOfSigned?_of_read (h : read cert = .ok c) :
    keyOfSigned? c.signed = some c.subjectKey := by
  rw [read, Except.bind_eq_ok_iff] at h
  obtain ⟨der, -, hparse⟩ := h
  exact keyOfSigned?_of_ofDer? (parse_eq_ok_iff.mp hparse)

theorem prehash_eq_of_signed_eq (hsigned : c.signed = c'.signed)
    (halgorithm : c.signatureAlgorithm = c'.signatureAlgorithm) : c.prehash = c'.prehash := by
  rw [prehash, prehash, hsigned, halgorithm]

end Certificate

namespace NodeKey

theorem endorses_of_read (service : NodeKey) (hread : Certificate.read cert = .ok c) :
    service.endorses cert = c.prehash.map fun hash => service.verify hash c.signature := by
  rw [endorses, hread, Except.ok_bind]
  cases c.prehash <;> rfl

/-- A service endorses the signed part of a certificate, the part that holds the key: nothing else
counts but the algorithm and the signature over that part. -/
theorem endorses_eq_of_signed_eq (service : NodeKey) (hread : Certificate.read cert = .ok c)
    (hread' : Certificate.read cert' = .ok c') (hsigned : c.signed = c'.signed)
    (halgorithm : c.signatureAlgorithm = c'.signatureAlgorithm)
    (hsignature : c.signature = c'.signature) :
    service.endorses cert = service.endorses cert' := by
  rw [service.endorses_of_read hread, service.endorses_of_read hread',
    Certificate.prehash_eq_of_signed_eq hsigned halgorithm, hsignature]

/-- Certificates with the same signed part have the same key, or are refused for the same fault,
however they are packaged and signed. -/
theorem ofCertificate_eq_of_signed_eq (cert cert' : Bytes) (c c' : Certificate)
    (hread : Certificate.read cert = .ok c) (hread' : Certificate.read cert' = .ok c')
    (hsigned : c.signed = c'.signed) : ofCertificate cert = ofCertificate cert' := by
  have hkey := Certificate.keyOfSigned?_of_read hread
  have hkey' := Certificate.keyOfSigned?_of_read hread'
  rw [hsigned, hkey'] at hkey
  have hsame : c'.subjectKey = c.subjectKey := Option.some.inj hkey
  rw [ofCertificate, ofCertificate, hread, hread', Except.ok_bind, Except.ok_bind, hsame]

open Policy (shortElement bareCertificate generatorCertificate)

def generatorKey : NodeKey := ⟨.p256, NamedCurve.p256.curve.generator⟩

/-- The key opposite to the generator: its certificate differs in the form of the point. -/
def mirroredKey : NodeKey :=
  let c := NamedCurve.p256.curve
  ⟨.p256, ⟨c.generatorX, c.prime - c.generatorY⟩⟩

theorem ofCertificate_bareCertificate :
    ofCertificate generatorCertificate = .ok generatorKey ∧
      ofCertificate (bareCertificate 2) = .ok mirroredKey := by
  decide +kernel

/-- A signature over a hash that holds under the generator, by the secret one and the nonce one. -/
def generatorSignature (hash : Bytes) : Bytes :=
  let c := NamedCurve.p256.curve
  let s := (Bytes.toNat hash + c.generatorX) % c.order
  shortElement 48 (shortElement 2 (Bytes.ofNat 32 c.generatorX) ++
    shortElement 2 (Bytes.ofNat 32 (min s (c.order - s))))

def generatorSigned : Bytes := (generatorCertificate.drop 2).take 100

/-- What is kept of a certificate with this signed part. -/
def signedBy (algorithm signature : Bytes) : Certificate where
  signed := generatorSigned
  subjectKey := ⟨⟨[42, 134, 72, 206, 61, 2, 1], some [42, 134, 72, 206, 61, 3, 1, 7]⟩,
    3 :: Bytes.ofNat 32 NamedCurve.p256.curve.generatorX⟩
  signatureAlgorithm := ⟨algorithm, none⟩
  signature := signature

/-- The signed part signed by its own key, and what is kept of that certificate. -/
def resigned : Certificate :=
  signedBy [42, 134, 72, 206, 61, 4, 3, 2] (generatorSignature (Sha2.sha256 generatorSigned))

/-- The same in a sequence whose length takes two bytes, and with a byte behind it. -/
def resignedCertificate : Bytes :=
  let content := resigned.signed ++
    shortElement 48 (shortElement 6 resigned.signatureAlgorithm.algorithm) ++
    shortElement 3 (0 :: resigned.signature)
  48 :: 130 :: Bytes.ofNat 2 content.length ++ content ++ [255]

theorem parse_resignedCertificate : Certificate.parse resignedCertificate = .ok resigned := by
  decide +kernel

theorem parse_generatorCertificate :
    Certificate.parse generatorCertificate = .ok (signedBy [] []) := by
  decide +kernel

theorem read_resignedCertificate : Certificate.read resignedCertificate = .ok resigned := by
  decide +kernel

theorem ofCertificate_resignedCertificate :
    ofCertificate resignedCertificate = .ok generatorKey := by
  decide +kernel

theorem ofCertificate_armoured_eq_resigned :
    let armoured := (Pem.Armour.oneLine generatorCertificate).bytes []
    Certificate.read armoured = .ok (signedBy [] []) ∧
      Certificate.read resignedCertificate = .ok resigned ∧
      ofCertificate armoured = .ok generatorKey ∧
      ofCertificate armoured = ofCertificate resignedCertificate := by
  intro armoured
  have harmoured : Certificate.read armoured = .ok (signedBy [] []) :=
    (Certificate.read_armour _ _).trans parse_generatorCertificate
  have hsame := ofCertificate_eq_of_signed_eq _ _ _ _ harmoured read_resignedCertificate rfl
  exact ⟨harmoured, read_resignedCertificate, hsame.trans ofCertificate_resignedCertificate, hsame⟩

/-- The signature holds under its own key, and not under the opposite one. -/
theorem endorses_resignedCertificate :
    generatorKey.endorses resignedCertificate = .ok true ∧
      mirroredKey.endorses resignedCertificate = .ok false := by
  rw [generatorKey.endorses_of_read read_resignedCertificate,
    mirroredKey.endorses_of_read read_resignedCertificate]
  decide +kernel

end NodeKey

end LedgerAudit
