import LedgerAudit.Certificate.Der

/-!
# Readers that do not look ahead

An element is read off the front of some bytes, and what follows it plays no part: the same element
is read whatever the bytes behind it are.
-/

namespace LedgerAudit

/-- A reader takes some bytes off the front and would take the same ones in front of any others. -/
def Local {α : Type} (read : Bytes → Option (α × Bytes)) : Prop :=
  ∀ ⦃bytes a rest⦄, read bytes = some (a, rest) →
    ∃ taken, bytes = taken ++ rest ∧ ∀ tail, read (taken ++ tail) = some (a, tail)

namespace Local

variable {α β : Type} {read : Bytes → Option (α × Bytes)} {read' : Bytes → Option (β × Bytes)}

/-- One reader goes on where another one has stopped. -/
theorem andThen (hread : Local read) (next : α → Bytes → Option (β × Bytes))
    (hnext : ∀ a, Local (next a))
    (heq : ∀ bytes, read' bytes = (read bytes).bind fun r => next r.1 r.2) : Local read' := by
  intro bytes b rest h
  rw [heq] at h
  obtain ⟨⟨a, middle⟩, ha, hb⟩ := Option.bind_eq_some_iff.mp h
  obtain ⟨first, rfl, hfirst⟩ := hread ha
  obtain ⟨second, rfl, hsecond⟩ := hnext a hb
  refine ⟨first ++ second, (List.append_assoc _ _ _).symm, fun tail => ?_⟩
  simp [heq, hfirst, hsecond]

/-- What is read may be refused or turned into something else, whatever follows it. -/
theorem filterMap (hread : Local read) (convert : α → Option β)
    (heq : ∀ bytes, read' bytes = (read bytes).bind fun r => (convert r.1).map (·, r.2)) :
    Local read' := by
  refine hread.andThen (fun a rest => (convert a).map (·, rest)) (fun a => ?_) heq
  intro bytes b rest h
  obtain ⟨b, hb, heq⟩ := Option.map_eq_some_iff.mp h
  obtain ⟨rfl, rfl⟩ := Prod.mk.inj heq
  exact ⟨[], rfl, fun tail => by simp [hb]⟩

/-- Taking so many bytes off the front is local, as long as there are so many. -/
theorem take (n : Nat) :
    Local fun bytes => if bytes.length < n then none else some (bytes.take n, bytes.drop n) := by
  intro bytes content rest h
  dsimp only at h
  by_cases hshort : bytes.length < n
  · simp [hshort] at h
  rw [if_neg hshort] at h
  obtain ⟨rfl, rfl⟩ := Prod.mk.inj (Option.some.inj h)
  have hlength : (bytes.take n).length = n := by
    rw [List.length_take]
    omega
  refine ⟨bytes.take n, (List.take_append_drop _ _).symm, fun tail => ?_⟩
  have henough : ¬(bytes.take n ++ tail).length < n := by
    rw [List.length_append]
    omega
  dsimp only
  rw [if_neg henough, List.take_left' hlength, List.drop_left' hlength]

/-- The bytes that were taken are read by themselves, and nothing is left. -/
theorem read_taken (hread : Local read) {bytes rest : Bytes} {a : α}
    (h : read bytes = some (a, rest)) :
    read (bytes.take (bytes.length - rest.length)) = some (a, []) := by
  obtain ⟨taken, rfl, htaken⟩ := hread h
  have hlength : (taken ++ rest).length - rest.length = taken.length := by simp
  rw [hlength, List.take_left]
  simpa using htaken []

end Local

namespace Ber

theorem readLongTag_local (more tag : Nat) : Local (readLongTag tag more) := by
  induction more generalizing tag with
  | zero =>
      intro bytes a rest h
      simp [readLongTag] at h
  | succ more ih =>
      intro bytes a rest h
      cases bytes with
      | nil => simp [readLongTag] at h
      | cons b bytes =>
          rw [readLongTag] at h
          by_cases hb : b.toNat < 128
          · rw [if_pos hb] at h
            obtain ⟨rfl, rfl⟩ := Prod.mk.inj (Option.some.inj h)
            exact ⟨[b], rfl, fun tail => by simp [readLongTag, hb]⟩
          · rw [if_neg hb] at h
            obtain ⟨taken, rfl, htaken⟩ := ih _ h
            exact ⟨b :: taken, rfl, fun tail => by simp [readLongTag, hb, htaken]⟩

theorem readTag_local (first : UInt8) : Local (readTag first) := by
  intro bytes a rest h
  by_cases hfirst : first.toNat % 32 = 31
  · rw [readTag, if_pos hfirst] at h
    obtain ⟨taken, rfl, htaken⟩ := readLongTag_local 5 0 h
    exact ⟨taken, rfl, fun tail => by rw [readTag, if_pos hfirst, htaken]⟩
  · rw [readTag, if_neg hfirst] at h
    obtain ⟨rfl, rfl⟩ := Prod.mk.inj (Option.some.inj h)
    exact ⟨[], rfl, fun tail => by simp [readTag, hfirst]⟩

theorem readExtent_local : Local readExtent := by
  intro bytes extent rest h
  cases bytes with
  | nil => simp [readExtent] at h
  | cons b bytes =>
      simp only [readExtent] at h
      by_cases hshort : b.toNat < 128
      · rw [if_pos hshort] at h
        obtain ⟨rfl, rfl⟩ := Prod.mk.inj (Option.some.inj h)
        exact ⟨[b], rfl, fun tail => by simp [readExtent, hshort]⟩
      rw [if_neg hshort] at h
      by_cases hopen : b.toNat = 128
      · rw [if_pos hopen] at h
        obtain ⟨rfl, rfl⟩ := Prod.mk.inj (Option.some.inj h)
        exact ⟨[b], rfl, fun tail => by simp [readExtent, hopen]⟩
      rw [if_neg hopen] at h
      -- What is left is a length in as many bytes as the first one says.
      have hlong : Local fun bytes =>
          if b.toNat = 255 ∨ bytes.length < b.toNat - 128 then none
          else if Bytes.toNat (bytes.take (b.toNat - 128)) < UInt64.size then
            some (Extent.definite (Bytes.toNat (bytes.take (b.toNat - 128))),
              bytes.drop (b.toNat - 128))
          else none := by
        refine (Local.take (b.toNat - 128)).filterMap (fun digits =>
          if b.toNat ≠ 255 ∧ Bytes.toNat digits < UInt64.size then
            some (.definite (Bytes.toNat digits)) else none) fun bytes => ?_
        by_cases hreserved : b.toNat = 255
        · by_cases hfew : bytes.length < b.toNat - 128 <;> simp [hreserved]
        · by_cases hfew : bytes.length < b.toNat - 128
          · simp [hfew]
          · by_cases hfits : Bytes.toNat (bytes.take (b.toNat - 128)) < UInt64.size <;>
              simp [hreserved, hfew, hfits]
      obtain ⟨taken, rfl, htaken⟩ := hlong h
      refine ⟨b :: taken, rfl, fun tail => ?_⟩
      rw [List.cons_append]
      simp only [readExtent, if_neg hshort, if_neg hopen]
      exact htaken tail

theorem readHeader_local : Local readHeader := by
  intro bytes header rest h
  cases bytes with
  | nil => simp [readHeader] at h
  | cons first bytes =>
      have hrest : Local fun bytes => (readTag first bytes).bind fun t =>
          (readExtent t.2).bind fun e =>
            some ((⟨first.toNat / 64, first.toNat / 32 % 2 == 1, t.1, e.1⟩ : Header), e.2) := by
        refine (readTag_local first).andThen (fun tag bytes => (readExtent bytes).bind fun e =>
          some (⟨first.toNat / 64, first.toNat / 32 % 2 == 1, tag, e.1⟩, e.2))
          (fun tag => ?_) fun _ => rfl
        exact readExtent_local.filterMap (fun extent => some ⟨_, _, tag, extent⟩) fun _ => rfl
      obtain ⟨taken, rfl, htaken⟩ := hrest h
      exact ⟨first :: taken, rfl, htaken⟩

end Ber

namespace Der

/-- A header of indefinite length is none of DER. -/
def headerOf? (header : Ber.Header) : Option Header :=
  match header.extent with
  | .definite length => some ⟨header.sort, header.constructed, header.tag, length⟩
  | .indefinite => none

theorem readHeader_local : Local readHeader := by
  refine Ber.readHeader_local.filterMap headerOf? fun bytes => ?_
  rw [readHeader]
  apply Option.bind_congr
  rintro ⟨header, rest⟩ -
  dsimp only [headerOf?]
  cases header.extent <;> rfl

theorem read_local : Local read := by
  refine readHeader_local.andThen (fun header rest =>
    if rest.length < header.length then none
    else some (⟨header, rest.take header.length⟩, rest.drop header.length))
    (fun header => ?_) fun _ => rfl
  refine (Local.take header.length).filterMap (fun content => some ⟨header, content⟩)
    fun bytes => ?_
  split <;> rfl

theorem readTagged_local (tag : Nat) : Local (readTagged tag) := by
  refine read_local.filterMap (fun e => if e.header.tag = tag then some e else none) fun bytes => ?_
  rw [readTagged]
  apply Option.bind_congr
  rintro ⟨e, rest⟩ -
  dsimp only
  split <;> rfl

theorem readSequence_local : Local readSequence :=
  (readTagged_local Tag.sequence).filterMap (fun e => some e.content) fun _ => rfl

end Der

end LedgerAudit
