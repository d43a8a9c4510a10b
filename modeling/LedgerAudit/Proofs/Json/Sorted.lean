import LedgerAudit.Json.Basic

/-!
# Values with their members sorted

Sorting the members of an object moves them and drops none, as long as no key comes twice. Then
looking a key up finds its only member.
-/

namespace LedgerAudit.Json

namespace Members

variable {key : String} {value : Json} {ms : Members}

def keys (ms : Members) : List String := ms.map Prod.fst

theorem insert_perm (h : key ∉ keys ms) : (insert key value ms).Perm ((key, value) :: ms) := by
  induction ms with
  | nil => exact .refl _
  | cons m ms ih =>
      obtain ⟨k, v⟩ := m
      rw [keys, List.map_cons, List.mem_cons, not_or] at h
      rw [insert]
      split
      · exact .refl _
      · rw [if_neg (Ne.symm h.1)]
        exact ((ih h.2).cons (k, v)).trans (.swap _ _ _)

theorem foldl_insert_perm {sorted : Members} (hms : (keys ms).Nodup)
    (hnew : ∀ k ∈ keys ms, k ∉ keys sorted) :
    (ms.foldl (fun sorted m => insert m.1 m.2 sorted) sorted).Perm (ms ++ sorted) := by
  induction ms generalizing sorted with
  | nil => exact .refl _
  | cons m ms ih =>
      rw [keys, List.map_cons, List.nodup_cons] at hms
      have hperm : (insert m.1 m.2 sorted).Perm (m :: sorted) :=
        insert_perm (hnew m.1 List.mem_cons_self)
      refine (ih hms.2 fun k hk hmem => ?_).trans ((hperm.append_left ms).trans List.perm_middle)
      rcases List.mem_cons.mp ((hperm.map Prod.fst).mem_iff.mp hmem) with rfl | hmem
      · exact hms.1 hk
      · exact hnew k (List.mem_cons_of_mem _ hk) hmem

theorem sort_perm (h : (keys ms).Nodup) : (sort ms).Perm ms := by
  have hperm : (sort ms).Perm (ms ++ []) := foldl_insert_perm h (by simp [keys])
  rwa [List.append_nil] at hperm

theorem find?_eq_some_iff (hkeys : (keys ms).Nodup) :
    find? ms key = some value ↔ (key, value) ∈ ms := by
  induction ms with
  | nil => simp [find?]
  | cons first ms ih =>
      obtain ⟨k, v⟩ := first
      obtain ⟨hfresh, hrest⟩ := List.nodup_cons.mp hkeys
      by_cases hk : k = key
      · subst hk
        have habsent : (k, value) ∉ ms := fun hmem =>
          hfresh (List.mem_map.mpr ⟨_, hmem, rfl⟩)
        simp [find?, habsent, eq_comm]
      · have hfind : find? ((k, v) :: ms) key = find? ms key := by simp [find?, hk]
        simp [hfind, ih hrest, Ne.symm hk]

end Members

theorem sortedItems_eq_map (items : List Json) : sortedItems items = items.map sorted := by
  induction items with
  | nil => rfl
  | cons v rest ih => rw [sortedItems, ih, List.map_cons]

theorem sortedMembers_eq_map (ms : Members) :
    sortedMembers ms = ms.map fun m => (m.1, m.2.sorted) := by
  induction ms with
  | nil => rfl
  | cons m ms ih => rw [sortedMembers, ih, List.map_cons]

/-- A sorted object has the members of the object, in another order and sorted themselves. -/
theorem sorted_object_perm {ms : Members} (h : ms.keys.Nodup) :
    ∃ ns : Members, (object ms).sorted = .object ns ∧
      ns.Perm (ms.map fun m => (m.1, m.2.sorted)) := by
  refine ⟨_, by rw [sorted], ?_⟩
  rw [sortedMembers_eq_map]
  apply Members.sort_perm
  simpa [Members.keys, Function.comp_def] using h

end LedgerAudit.Json
