import LedgerAudit.Text.Blank
import Mathlib.Data.List.TakeWhile

/-!
# Texts between blanks

A text without blanks is what is left of it when any blanks have been put around it.
-/

namespace LedgerAudit.Text

theorem dropWhile_isBlank_append {before rest : List Char} (hbefore : ∀ c ∈ before, isBlank c)
    (hrest : ∀ c ∈ rest.head?, isBlank c = false) :
    (before ++ rest).dropWhile isBlank = rest := by
  induction before with
  | nil =>
      cases rest with
      | nil => rfl
      | cons c rest => simp [hrest c rfl]
  | cons b before ih =>
      obtain ⟨hb, hbefore⟩ := List.forall_mem_cons.mp hbefore
      simp [hb, ih hbefore]

theorem trimEnd_append {core after : List Char} (hcore : ∀ c ∈ core, isBlank c = false)
    (hafter : ∀ c ∈ after, isBlank c) : trimEnd (core ++ after) = core := by
  have hblank : ∀ c ∈ after.reverse, isBlank c := fun c hc => hafter c (List.mem_reverse.mp hc)
  rw [trimEnd, List.reverse_append, dropWhile_isBlank_append hblank, List.reverse_reverse]
  exact fun c hc => hcore c (List.mem_reverse.mp (List.mem_of_mem_head? hc))

/-- What is left between blanks, where it has none of them itself. -/
theorem trim_eq_iff {cs core : List Char} (hcore : ∀ c ∈ core, isBlank c = false) :
    trim cs = core ↔ ∃ before after, (∀ c ∈ before, isBlank c) ∧ (∀ c ∈ after, isBlank c) ∧
      cs = before ++ core ++ after := by
  constructor
  · rintro rfl
    have hstart : cs = cs.takeWhile isBlank ++ trimStart cs := List.takeWhile_append_dropWhile.symm
    have hend : trimStart cs =
        trim cs ++ ((trimStart cs).reverse.takeWhile isBlank).reverse := by
      rw [trim, trimEnd, ← List.reverse_append, List.takeWhile_append_dropWhile,
        List.reverse_reverse]
    refine ⟨cs.takeWhile isBlank, ((trimStart cs).reverse.takeWhile isBlank).reverse,
      fun c hc => List.mem_takeWhile_imp hc,
      fun c hc => List.mem_takeWhile_imp (List.mem_reverse.mp hc), ?_⟩
    rw [List.append_assoc, ← hend]
    exact hstart
  · rintro ⟨before, after, hbefore, hafter, rfl⟩
    cases core with
    | nil =>
        have hall : trimStart (before ++ after) = [] := by
          rw [trimStart, List.dropWhile_eq_nil_iff]
          exact fun c hc => (List.mem_append.mp hc).elim (hbefore c) (hafter c)
        rw [List.append_nil, trim, hall, trimEnd_nil]
    | cons c core =>
        have hstart : trimStart (before ++ (c :: core ++ after)) = c :: core ++ after := by
          refine dropWhile_isBlank_append hbefore ?_
          rintro _ ⟨⟩
          exact hcore c List.mem_cons_self
        rw [List.append_assoc, trim, hstart, trimEnd_append hcore hafter]

end LedgerAudit.Text
