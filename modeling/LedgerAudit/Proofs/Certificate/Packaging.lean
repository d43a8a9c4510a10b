import LedgerAudit.Proofs.Certificate.Armour
import LedgerAudit.Proofs.Certificate.Signed

/-!
# Packagings of a certificate

A certificate may be handed in as it stands, with bytes behind it, or as an armour. It is the same
certificate in each of these forms, and holds the same key under the same signature.
-/

namespace LedgerAudit

/-- A tag of one byte is in the first byte. -/
theorem Ber.tag_of_readHeader {first : UInt8} {tail rest : Bytes} {header : Ber.Header}
    (hshort : first.toNat % 32 ≠ 31) (h : Ber.readHeader (first :: tail) = some (header, rest)) :
    header.tag = first.toNat % 32 := by
  simp only [readHeader, readTag, if_neg hshort, Option.bind_eq_bind, Option.bind_some,
    Option.bind_eq_some_iff, Prod.exists, Option.pure_def, Option.some.injEq,
    Prod.mk.injEq] at h
  obtain ⟨-, -, -, rfl, -⟩ := h
  rfl

namespace Der

theorem exists_readHeader_of_readSequence {bytes content rest : Bytes}
    (h : readSequence bytes = some (content, rest)) :
    ∃ header tail, readHeader bytes = some (header, tail) ∧ header.tag = Tag.sequence := by
  obtain ⟨⟨e, _⟩, htagged, -⟩ := Option.bind_eq_some_iff.mp h
  obtain ⟨⟨e, tail⟩, hread, htag⟩ := Option.bind_eq_some_iff.mp htagged
  obtain ⟨⟨header, tail⟩, hheader, hcontent⟩ := Option.bind_eq_some_iff.mp hread
  obtain ⟨-, hcontent⟩ := Option.ite_none_left_eq_some.mp hcontent
  obtain ⟨htag, -⟩ := Option.ite_none_right_eq_some.mp htag
  obtain ⟨rfl, -⟩ := Prod.mk.inj (Option.some.inj hcontent)
  exact ⟨header, tail, hheader, htag⟩

theorem exists_ber_readHeader {bytes rest : Bytes} {header : Header}
    (h : readHeader bytes = some (header, rest)) :
    ∃ found, Ber.readHeader bytes = some (found, rest) ∧ found.tag = header.tag := by
  obtain ⟨⟨found, tail⟩, hfound, hdefinite⟩ := Option.bind_eq_some_iff.mp h
  dsimp only at hdefinite
  split at hdefinite
  · obtain ⟨rfl, rfl⟩ := Prod.mk.inj (Option.some.inj hdefinite)
    exact ⟨found, hfound, rfl⟩
  · nomatch hdefinite

/-- A sequence begins with the number of its tag, or with the mark of a tag of several bytes. -/
theorem exists_cons_of_readSequence {bytes content rest : Bytes}
    (h : readSequence bytes = some (content, rest)) :
    ∃ first tail, bytes = first :: tail ∧
      (first.toNat % 32 = 31 ∨ first.toNat % 32 = Tag.sequence) := by
  obtain ⟨header, rest, hheader, htag⟩ := exists_readHeader_of_readSequence h
  obtain ⟨found, hfound, hsame⟩ := exists_ber_readHeader hheader
  cases bytes with
  | nil => nomatch hfound
  | cons first tail =>
      refine ⟨first, tail, rfl, or_iff_not_imp_left.mpr fun hshort => ?_⟩
      rw [← Ber.tag_of_readHeader hshort hfound, hsame, htag]

end Der

namespace Certificate

open Der

variable {der : Bytes} {c : Certificate}

theorem ofDer?_append (h : ofDer? der = some c) (extra : Bytes) :
    ofDer? (der ++ extra) = some c := by
  obtain ⟨⟨content, rest⟩, hsequence, hcontent⟩ := Option.bind_eq_some_iff.mp h
  obtain ⟨taken, rfl, htaken⟩ := readSequence_local hsequence
  rw [List.append_assoc, ofDer?, htaken]
  exact hcontent

/-- Bytes are passed on where the first of them that is no blank begins no armour. -/
theorem derOf_append {blanks rest : Bytes} (hblanks : ∀ b ∈ blanks, Pem.isBlank b)
    (hrest : ∀ b ∈ rest.head?, ¬Pem.isBlank b) (hmarker : ¬Pem.marker <+: rest) :
    derOf (blanks ++ rest) = .ok (blanks ++ rest) := by
  have hstart : Pem.trimStart (blanks ++ rest) = rest := by
    rw [Pem.trimStart, List.dropWhile_append_of_pos hblanks]
    cases rest with
    | nil => rfl
    | cons b rest => exact List.dropWhile_cons_of_neg (hrest b rfl)
  rw [derOf, Pem.isArmoured, hstart, if_neg (mt List.isPrefixOf_iff_prefix.mp hmarker)]

/-- A certificate begins with neither a blank nor a dash. -/
theorem derOf_of_ofDer? (h : ofDer? der = some c) : derOf der = .ok der := by
  obtain ⟨⟨content, rest⟩, hsequence, -⟩ := Option.bind_eq_some_iff.mp h
  obtain ⟨first, tail, rfl, hfirst⟩ := exists_cons_of_readSequence hsequence
  have hall : ∀ b : UInt8, b.toNat % 32 = 31 ∨ b.toNat % 32 = Tag.sequence →
      ¬Pem.isBlank b ∧ b ≠ 45 :=
    Bytes.forall_byte (by decide +kernel)
  obtain ⟨hblank, hdash⟩ := hall first hfirst
  refine derOf_append (by simp : ∀ b ∈ [], Pem.isBlank b) ?_ fun hmarker => hdash ?_
  · rintro b ⟨⟩
    exact hblank
  · have hmarker : 45 :: Pem.ascii "----BEGIN" <+: first :: tail := hmarker
    exact (List.cons_prefix_cons.mp hmarker).1.symm

/-- The forms in which a certificate may be handed in. -/
inductive Packages (der : Bytes) : Bytes → Prop
  | followed (extra : Bytes) : Packages der (der ++ extra)
  | armoured (a : Pem.Armour der) (after : Bytes) : Packages der (a.bytes after)

theorem Packages.self (der : Bytes) : Packages der der := by
  simpa using @Packages.followed der []

theorem Packages.read_eq {cert : Bytes} (hcert : Packages der cert) (h : parse der = .ok c) :
    read cert = .ok c := by
  cases hcert with
  | followed extra =>
      have hextra := ofDer?_append (parse_eq_ok_iff.mp h) extra
      rw [read, derOf_of_ofDer? hextra]
      exact parse_eq_ok_iff.mpr hextra
  | armoured a after => exact (read_armour a after).trans h

theorem Packages.read_eq_read {cert : Bytes} (hcert : Packages der cert) (h : parse der = .ok c) :
    read cert = read der :=
  (hcert.read_eq h).trans ((self der).read_eq h).symm

end Certificate

namespace NodeKey

variable {der cert : Bytes} {c : Certificate}

theorem ofCertificate_eq_of_packages (hparse : Certificate.parse der = .ok c)
    (hcert : Certificate.Packages der cert) : ofCertificate cert = ofCertificate der := by
  rw [ofCertificate, ofCertificate, hcert.read_eq_read hparse]

theorem endorses_eq_of_packages (service : NodeKey) (hparse : Certificate.parse der = .ok c)
    (hcert : Certificate.Packages der cert) : service.endorses cert = service.endorses der := by
  rw [endorses, endorses, hcert.read_eq_read hparse]

/-- A certificate has the same key and the same endorsement in each of its forms. An armour is taken
off exactly, and bytes that do not begin with one are passed on. -/
theorem packaging_irrelevant :
    (∀ (der : Bytes) (c : Certificate), Certificate.parse der = .ok c →
      ∀ cert, Certificate.Packages der cert →
        ofCertificate cert = ofCertificate der ∧
        ∀ service : NodeKey, service.endorses cert = service.endorses der) ∧
    (∀ (der : Bytes) (a : Pem.Armour der) (after : Bytes),
      Certificate.derOf (a.bytes after) = .ok der) ∧
    ∀ blanks rest : Bytes, (∀ b ∈ blanks, Pem.isBlank b) → (∀ b ∈ rest.head?, ¬Pem.isBlank b) →
      ¬Pem.marker <+: rest → Certificate.derOf (blanks ++ rest) = .ok (blanks ++ rest) :=
  ⟨fun _ _ hparse _ hcert => ⟨ofCertificate_eq_of_packages hparse hcert,
      fun service => endorses_eq_of_packages service hparse hcert⟩,
    fun _ a after => Certificate.derOf_armour a after,
    fun _ _ => Certificate.derOf_append⟩

/-- The armour of a certificate that was signed by its own key. -/
theorem packaging_irrelevant_resigned :
    let armoured := (Pem.Armour.wrapped resignedCertificate).bytes [255]
    (ofCertificate armoured = .ok generatorKey ∧
      generatorKey.endorses armoured = .ok true ∧ mirroredKey.endorses armoured = .ok false ∧
      ofCertificate armoured = ofCertificate resignedCertificate ∧
      ∀ service : NodeKey, service.endorses armoured = service.endorses resignedCertificate) ∧
    Certificate.derOf ((Pem.Armour.wrapped [48]).bytes []) = .ok [48] ∧
    Certificate.derOf ([32] ++ Bytes.ofText "----- BEGIN") =
      .ok ([32] ++ Bytes.ofText "----- BEGIN") := by
  intro armoured
  have hhead : (Bytes.ofText "----- BEGIN").head? = some 45 := by decide
  obtain ⟨hholds, hopposite⟩ := endorses_resignedCertificate
  obtain ⟨hforms, harmour, hpassed⟩ := packaging_irrelevant
  obtain ⟨hsame, hendorses⟩ :=
    hforms _ _ parse_resignedCertificate armoured (.armoured (.wrapped _) [255])
  exact ⟨⟨hsame.trans ofCertificate_resignedCertificate, (hendorses _).trans hholds, (hendorses _).trans hopposite, hsame,
      hendorses⟩, harmour _ _ _,
    hpassed _ _ (by simp [Pem.isBlank]) (by simp [hhead, Pem.isBlank]) (by decide)⟩

end NodeKey

end LedgerAudit
