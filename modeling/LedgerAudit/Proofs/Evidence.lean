import LedgerAudit.Evidence
import LedgerAudit.Proofs.Hex
import LedgerAudit.Proofs.Text.Numeral
import Mathlib.Algebra.Group.Nat.Defs
import Mathlib.Data.List.TakeWhile

/-!
# Commit evidence that names a position

Evidence names a position exactly when it is written as `ce:<term>.<revision>:<nonce>`, with two
numerals below 2 ^ 64 and a nonce of hexadecimal digits. There is one way at most to take it apart.
-/

namespace LedgerAudit

namespace Numeral

/-- The number that a numeral without a minus sign spells out. -/
inductive Unsigned : List Char → Nat → Prop
  | bare {ds : List Char} (h : IsMagnitude ds) : Unsigned ds (Nat.ofDigitChars 10 ds 0)
  | plus {ds : List Char} (h : IsMagnitude ds) : Unsigned ('+' :: ds) (Nat.ofDigitChars 10 ds 0)

theorem unsigned_iff {cs : List Char} {n : Nat} :
    Unsigned cs n ↔ Denotes cs n ∧ cs.head? ≠ some '-' := by
  constructor
  · rintro (h | h)
    · refine ⟨.bare h, fun hminus => ?_⟩
      exact absurd (h.2 '-' (List.mem_of_mem_head? hminus)) (by decide)
    · exact ⟨.plus h, by simp⟩
  · rintro ⟨h, hminus⟩
    generalize hn : (n : Int) = i at h
    cases h with
    | bare h => exact Int.ofNat.inj hn ▸ .bare h
    | plus h => exact Int.ofNat.inj hn ▸ .plus h
    | minus h => exact absurd rfl hminus

theorem unsigned_repr (n : Nat) : Unsigned n.repr.toList n := by
  have h := Unsigned.bare (isMagnitude_repr n)
  rwa [ofDigitChars_repr] at h

/-- Marks do not stand in a numeral. -/
theorem Unsigned.notMem {cs : List Char} {n : Nat} (h : Unsigned cs n) {mark : Char}
    (hdigit : mark.isDigit = false) (hplus : mark ≠ '+') : mark ∉ cs := by
  have hnot : ∀ ds, IsMagnitude ds → mark ∉ ds := by
    intro ds hds hmem
    rw [hds.2 mark hmem] at hdigit
    nomatch hdigit
  cases h with
  | bare h => exact hnot _ h
  | plus h =>
    rw [List.mem_cons, not_or]
    exact ⟨hplus, hnot _ h⟩

end Numeral

/-- The term and the revision as numbers. -/
def TxId.toNats (id : TxId) : Nat × Nat := (id.term.toNat, id.revision.toNat)

namespace CommitEvidence

theorem splitAt?_eq_some_iff {mark : Char} {cs before after : List Char} :
    splitAt? mark cs = some (before, after) ↔ mark ∉ before ∧ cs = before ++ mark :: after := by
  rw [splitAt?]
  constructor
  · intro h
    split at h
    · nomatch h
    · next first rest hdrop =>
      simp only [Option.some.injEq, Prod.mk.injEq] at h
      obtain ⟨rfl, rfl⟩ := h
      have hfirst : first = mark := by
        have hhead := List.head?_dropWhile_not (· ≠ mark) cs
        rw [hdrop] at hhead
        simpa using hhead
      refine ⟨fun hmem => ?_, ?_⟩
      · simpa using List.mem_takeWhile_imp hmem
      · rw [← hfirst, ← hdrop, hfirst, List.takeWhile_append_dropWhile]
  · rintro ⟨hmark, rfl⟩
    have hall : ∀ c ∈ before, decide (c ≠ mark) = true := by
      intro c hc
      rw [decide_eq_true_eq]
      rintro rfl
      exact hmark hc
    rw [List.dropWhile_append_of_pos hall, List.takeWhile_append_of_pos hall]
    simp

/-- A text is divided in one way at a mark that its first part does not hold. -/
theorem append_mark_inj {mark : Char} {before after before' after' : List Char}
    (hmark : mark ∉ before) (hmark' : mark ∉ before')
    (h : before ++ mark :: after = before' ++ mark :: after') :
    before = before' ∧ after = after' := by
  have hsplit := splitAt?_eq_some_iff.mpr ⟨hmark, h.symm⟩
  rw [splitAt?_eq_some_iff.mpr ⟨hmark', rfl⟩, Option.some.injEq, Prod.mk.injEq] at hsplit
  exact ⟨hsplit.1.symm, hsplit.2.symm⟩

theorem afterPrefix?_eq_some_iff {cs rest : List Char} :
    afterPrefix? cs = some rest ↔ cs = 'c' :: 'e' :: ':' :: rest := by
  unfold afterPrefix?
  split
  · simp
  · next h =>
    simp only [reduceCtorEq, false_iff]
    exact h rest

theorem number?_eq_some_iff {cs : List Char} {n : UInt64} :
    number? cs = some n ↔ Numeral.Unsigned cs n.toNat := by
  have hread : number? cs = some n ↔ Numeral.read UInt64 cs = .ok n := by
    rw [number?]
    cases Numeral.read UInt64 cs <;> simp [Except.toOption]
  rw [hread, Numeral.read_eq_ok_iff FixedWidth.hasZero_uint64, Numeral.unsigned_iff]
  have hsign : ¬FixedWidth.least UInt64 < 0 := by decide
  simp only [hsign, imp_false]
  rfl

/-- A text of hexadecimal digits, and at least one. -/
def IsNonce (text : String) : Prop := text ≠ "" ∧ ∀ c ∈ text.toList, c ∈ Hex.digits

theorem isNonce_iff {cs : List Char} :
    IsNonce (String.ofList cs) ↔
      ¬((cs.isEmpty || !cs.all fun c => (Hex.value? c).isSome) = true) := by
  simp [IsNonce, Hex.isSome_value?_iff]

/-- The texts between the marks of evidence. -/
structure Parts where
  term : String
  revision : String
  nonce : String

namespace Parts

def text (p : Parts) : String := s!"ce:{p.term}.{p.revision}:{p.nonce}"

theorem toList_text (p : Parts) :
    p.text.toList = 'c' :: 'e' :: ':' ::
      ((p.term.toList ++ '.' :: p.revision.toList) ++ ':' :: p.nonce.toList) := by
  simp [text, toString]

/-- What the marks divide holds none of the marks that end it. -/
structure Divided (p : Parts) : Prop where
  colon_notMem : ':' ∉ p.term.toList ++ '.' :: p.revision.toList
  dot_notMem : '.' ∉ p.term.toList

theorem eq_of_text_eq {p q : Parts} (hp : p.Divided) (hq : q.Divided) (h : p.text = q.text) :
    p = q := by
  have hlist := congrArg String.toList h
  simp only [toList_text, List.cons.injEq, true_and] at hlist
  obtain ⟨hposition, hnonce⟩ := append_mark_inj hp.colon_notMem hq.colon_notMem hlist
  obtain ⟨hterm, hrevision⟩ := append_mark_inj hp.dot_notMem hq.dot_notMem hposition
  obtain ⟨term, revision, nonce⟩ := p
  rw [String.toList_inj] at hterm hrevision hnonce
  subst hterm hrevision hnonce
  rfl

/-- The parts are numerals of a term and a revision, and a nonce. -/
structure Names (p : Parts) (term revision : Nat) : Prop where
  term : Numeral.Unsigned p.term.toList term
  revision : Numeral.Unsigned p.revision.toList revision
  nonce : IsNonce p.nonce

theorem divided_of_unsigned {p : Parts} {t r : Nat} (ht : Numeral.Unsigned p.term.toList t)
    (hr : Numeral.Unsigned p.revision.toList r) : p.Divided where
  colon_notMem := by
    rw [List.mem_append, List.mem_cons, not_or, not_or]
    exact ⟨ht.notMem rfl (by decide), by decide, hr.notMem rfl (by decide)⟩
  dot_notMem := ht.notMem rfl (by decide)

theorem Names.divided {p : Parts} {t r : Nat} (h : p.Names t r) : p.Divided :=
  divided_of_unsigned h.term h.revision

end Parts

theorem txId?_eq_some_iff {e : CommitEvidence} {id : TxId} :
    e.txId? = some id ↔
      ∃ p : Parts, e.text = p.text ∧ p.Names id.term.toNat id.revision.toNat := by
  simp only [txId?, Option.bind_eq_bind, Option.bind_eq_some_iff, afterPrefix?_eq_some_iff,
    Prod.exists, splitAt?_eq_some_iff, Option.ite_none_left_eq_some, Option.pure_def,
    Option.some.injEq, number?_eq_some_iff, ← isNonce_iff]
  constructor
  · rintro ⟨rest, htext, position, nonce, ⟨-, rfl⟩, hnonce, term, revision, ⟨-, rfl⟩, t, ht, r, hr,
      rfl⟩
    refine ⟨⟨.ofList term, .ofList revision, .ofList nonce⟩, ?_, ?_, ?_, hnonce⟩
    · rw [← String.toList_inj, htext, Parts.toList_text]
      simp only [String.toList_ofList]
    · rwa [String.toList_ofList]
    · rwa [String.toList_ofList]
  · rintro ⟨p, htext, hp⟩
    have hnonce : IsNonce (.ofList p.nonce.toList) := by
      rw [String.ofList_toList]
      exact hp.nonce
    rw [htext, Parts.toList_text]
    exact ⟨_, rfl, _, _, ⟨hp.divided.colon_notMem, rfl⟩, hnonce, _, _,
      ⟨hp.divided.dot_notMem, rfl⟩, _, hp.term, _, hp.revision, rfl⟩

theorem map_toNats_txId?_eq_some_iff {e : CommitEvidence} {t r : Nat} :
    e.txId?.map TxId.toNats = some (t, r) ↔
      (t < 2 ^ 64 ∧ r < 2 ^ 64) ∧ ∃ p : Parts, e.text = p.text ∧ p.Names t r := by
  simp only [TxId.toNats, Option.map_eq_some_iff, Prod.mk.injEq, txId?_eq_some_iff]
  constructor
  · rintro ⟨id, hparts, rfl, rfl⟩
    exact ⟨⟨id.term.toNat_lt, id.revision.toNat_lt⟩, hparts⟩
  · rintro ⟨⟨ht, hr⟩, hparts⟩
    have hterm : (UInt64.ofNat t).toNat = t := UInt64.toNat_ofNat_of_lt' ht
    have hrevision : (UInt64.ofNat r).toNat = r := UInt64.toNat_ofNat_of_lt' hr
    refine ⟨⟨UInt64.ofNat t, UInt64.ofNat r⟩, ?_, hterm, hrevision⟩
    rwa [hterm, hrevision]

/-- Evidence is read exactly when it is written in the form `ce:<term>.<revision>:<nonce>`, and then
it is taken apart in one way. The decimal texts of two numbers and a nonce are of this form. -/
theorem txId_eq_some_iff_written :
    (∀ (e : CommitEvidence) (t r : Nat),
      e.txId?.map TxId.toNats = some (t, r) ↔
        (t < 2 ^ 64 ∧ r < 2 ^ 64) ∧ ∃! p : Parts, e.text = p.text ∧ p.Names t r) ∧
    ∀ (t r : Nat) (nonce : String),
      (txId? ⟨s!"ce:{t}.{r}:{nonce}"⟩).map TxId.toNats = some (t, r) ↔
        (t < 2 ^ 64 ∧ r < 2 ^ 64) ∧ IsNonce nonce := by
  constructor
  · intro e t r
    rw [map_toNats_txId?_eq_some_iff]
    refine and_congr_right fun _ => ⟨?_, ExistsUnique.exists⟩
    rintro ⟨p, htext, hp⟩
    refine ⟨p, ⟨htext, hp⟩, ?_⟩
    rintro q ⟨hq, hnames⟩
    exact Parts.eq_of_text_eq hnames.divided hp.divided (hq.symm.trans htext)
  · intro t r nonce
    let written : Parts := ⟨toString t, toString r, nonce⟩
    have ht : Numeral.Unsigned written.term.toList t := Numeral.unsigned_repr t
    have hr : Numeral.Unsigned written.revision.toList r := Numeral.unsigned_repr r
    rw [map_toNats_txId?_eq_some_iff]
    refine and_congr_right fun _ => ⟨?_, fun hnonce => ⟨written, rfl, ht, hr, hnonce⟩⟩
    rintro ⟨p, htext, hp⟩
    obtain rfl : written = p :=
      Parts.eq_of_text_eq (Parts.divided_of_unsigned ht hr) hp.divided htext
    exact hp.nonce

end CommitEvidence

end LedgerAudit
