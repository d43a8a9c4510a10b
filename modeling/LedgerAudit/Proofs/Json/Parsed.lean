import LedgerAudit.Json.Reader
import LedgerAudit.Proofs.Basic
import LedgerAudit.Proofs.Json.Sorted
import Mathlib.Tactic.SplitIfs

/-!
# Values that are read from texts

A value that is read from a text has the members of every object in the order of their keys. So each
key comes once, at any depth.
-/

namespace LedgerAudit.Json

namespace Members

variable {key : String} {value : Json} {ms : Members} {m : String × Json}

def Ordered (ms : Members) : Prop := (keys ms).Pairwise (· < ·)

theorem ordered_nil : Ordered [] := List.Pairwise.nil

theorem Ordered.nodup (h : Ordered ms) : (keys ms).Nodup :=
  List.Pairwise.imp String.ne_of_lt h

theorem eq_or_mem_of_mem_insert (h : m ∈ insert key value ms) : m = (key, value) ∨ m ∈ ms := by
  induction ms with
  | nil => simpa [insert] using h
  | cons other ms ih =>
      rw [insert] at h
      split at h
      · simpa using h
      · split at h
        · exact (List.mem_cons.mp h).imp_right (List.mem_cons_of_mem _)
        · rcases List.mem_cons.mp h with rfl | h
          · exact .inr List.mem_cons_self
          · exact (ih h).imp_right (List.mem_cons_of_mem _)

theorem Ordered.insert (h : Ordered ms) : Ordered (insert key value ms) := by
  induction ms with
  | nil => simp [Ordered, keys, Members.insert]
  | cons other ms ih =>
      obtain ⟨hfirst, hrest⟩ := List.pairwise_cons.mp h
      rw [Members.insert]
      by_cases hlt : key < other.1
      · rw [if_pos hlt]
        refine List.pairwise_cons.mpr ⟨?_, h⟩
        refine List.forall_mem_cons.mpr ⟨hlt, fun k hk => String.lt_trans hlt (hfirst k hk)⟩
      · rw [if_neg hlt]
        by_cases heq : other.1 = key
        · rw [if_pos heq]
          exact List.pairwise_cons.mpr ⟨heq ▸ hfirst, hrest⟩
        · rw [if_neg heq]
          refine List.pairwise_cons.mpr ⟨fun k hk => ?_, ih hrest⟩
          obtain ⟨m, hm, rfl⟩ := List.mem_map.mp hk
          rcases eq_or_mem_of_mem_insert hm with rfl | hm
          · exact Std.lt_of_le_of_ne (String.not_lt.mp hlt) heq
          · exact hfirst m.1 (List.mem_map_of_mem hm)

/-- Members that are put in one by one stay in order, and no others are there. -/
theorem ordered_foldl_insert {sorted : Members} (h : Ordered sorted) :
    Ordered (ms.foldl (fun sorted m => insert m.1 m.2 sorted) sorted) ∧
      ∀ m ∈ ms.foldl (fun sorted m => insert m.1 m.2 sorted) sorted, m ∈ sorted ∨ m ∈ ms := by
  induction ms generalizing sorted with
  | nil => exact ⟨h, fun m hm => .inl hm⟩
  | cons first ms ih =>
      obtain ⟨hordered, hmem⟩ := ih h.insert
      refine ⟨hordered, fun m hm => ?_⟩
      rcases hmem m hm with hm | hm
      · rcases eq_or_mem_of_mem_insert hm with rfl | hm
        · exact .inr List.mem_cons_self
        · exact .inl hm
      · exact .inr (List.mem_cons_of_mem _ hm)

theorem ordered_sort (ms : Members) : Ordered (sort ms) :=
  (ordered_foldl_insert ordered_nil).1

theorem mem_of_mem_sort (h : m ∈ sort ms) : m ∈ ms :=
  ((ordered_foldl_insert ordered_nil).2 m h).resolve_left List.not_mem_nil

end Members

/-- A value with the members of its objects in order, at any depth. -/
inductive InOrder : Json → Prop
  | null : InOrder .null
  | bool (b : Bool) : InOrder (.bool b)
  | number (n : Number) : InOrder (.number n)
  | string (text : String) : InOrder (.string text)
  | array {items : List Json} (hitems : ∀ v ∈ items, InOrder v) : InOrder (.array items)
  | object {ms : Members} (hordered : ms.Ordered) (hmembers : ∀ m ∈ ms, InOrder m.2) :
      InOrder (.object ms)

def Frame.InOrder : Frame → Prop
  | .array items => ∀ v ∈ items, v.InOrder
  | .object members | .member members _ => ∀ m ∈ members, m.2.InOrder

/-- A mode that waits with a value waits with one in order. -/
def Mode.InOrder : Mode → Prop
  | .word _ v | .done v => v.InOrder
  | _ => True

namespace Reader

variable {stack : List Frame} {r s : Reader} {c : Char} {v : Json}

structure InOrder (r : Reader) : Prop where
  stack : ∀ f ∈ r.stack, f.InOrder
  mode : r.mode.InOrder

theorem inOrder_deliver (hstack : ∀ f ∈ stack, f.InOrder) (hv : v.InOrder) :
    (deliver v stack).InOrder := by
  cases stack with
  | nil => exact ⟨hstack, hv⟩
  | cons frame rest =>
      obtain ⟨hframe, hrest⟩ := List.forall_mem_cons.mp hstack
      cases frame with
      | array items =>
          exact ⟨List.forall_mem_cons.mpr ⟨List.forall_mem_cons.mpr ⟨hv, hframe⟩, hrest⟩, trivial⟩
      | object members => exact ⟨hstack, hv⟩
      | member members key =>
          exact ⟨List.forall_mem_cons.mpr ⟨List.forall_mem_cons.mpr ⟨hv, hframe⟩, hrest⟩, trivial⟩

/-- What a step gives is in order, if it gives anything. -/
def Yields (result : Except SyntaxFault Reader) : Prop := ∀ s, result = .ok s → s.InOrder

theorem Yields.ok (h : r.InOrder) : Yields (.ok r) := by
  rintro _ ⟨⟩
  exact h

theorem Yields.error (fault : SyntaxFault) : Yields (.error fault) := nofun

theorem Yields.bind {result : Except SyntaxFault Reader} {next : Reader → Except SyntaxFault Reader}
    (hresult : Yields result) (hnext : ∀ s, s.InOrder → Yields (next s)) :
    Yields (result >>= next) := by
  intro t h
  obtain ⟨s, hs, ht⟩ := Except.bind_eq_ok_iff.mp h
  exact hnext s (hresult s hs) t ht

section Steps

variable (hstack : ∀ f ∈ stack, f.InOrder)
include hstack

theorem yields_openContainer {frame : Frame} {mode : Mode} (hframe : frame.InOrder)
    (hmode : mode.InOrder) : Yields (openContainer stack frame mode) := by
  rw [openContainer]
  split
  · exact .ok ⟨List.forall_mem_cons.mpr ⟨hframe, hstack⟩, hmode⟩
  · exact .error _

theorem yields_beginValue (c : Char) : Yields (beginValue stack c) := by
  rw [beginValue]
  split_ifs
  · exact .ok ⟨hstack, .null⟩
  · exact .ok ⟨hstack, .bool true⟩
  · exact .ok ⟨hstack, .bool false⟩
  · exact .ok ⟨hstack, trivial⟩
  · exact yields_openContainer hstack (List.forall_mem_nil _) trivial
  · exact yields_openContainer hstack (List.forall_mem_nil _) trivial
  · exact .ok ⟨hstack, trivial⟩
  · split
    · exact .ok ⟨hstack, trivial⟩
    · exact .error _

theorem yields_closeArray : Yields (closeArray stack) := by
  rw [closeArray.eq_def]
  split
  · obtain ⟨hitems, hrest⟩ := List.forall_mem_cons.mp hstack
    exact .ok (inOrder_deliver hrest (.array fun v hv => hitems v (List.mem_reverse.mp hv)))
  · exact .error _

/-- A finished object is sorted, whatever order its members came in. -/
theorem yields_closeObject : Yields (closeObject stack) := by
  rw [closeObject.eq_def]
  split
  · obtain ⟨hmembers, hrest⟩ := List.forall_mem_cons.mp hstack
    refine .ok (inOrder_deliver hrest (.object (Members.ordered_sort _) fun m hm => ?_))
    exact hmembers m (List.mem_reverse.mp (Members.mem_of_mem_sort hm))
  · exact .error _

theorem inOrder_endString (chars : List Char) : (endString chars stack).InOrder := by
  rw [endString.eq_def]
  split
  · obtain ⟨hmembers, hrest⟩ := List.forall_mem_cons.mp hstack
    exact ⟨List.forall_mem_cons.mpr ⟨hmembers, hrest⟩, trivial⟩
  · exact inOrder_deliver hstack (.string _)

theorem yields_endUnit (chars : List Char) (lead : Option Nat) (unit : Nat) :
    Yields ((endUnit chars lead unit).map fun mode => ⟨stack, mode⟩) := by
  rw [endUnit.eq_def]
  split <;> split_ifs <;> first | exact .ok ⟨hstack, trivial⟩ | exact .error _

theorem yields_stepString (chars : List Char) (c : Char) (stage : StringStage) :
    Yields (stepString stack chars c stage) := by
  cases stage with
  | plain =>
      rw [stepString]
      split_ifs
      · exact .ok (inOrder_endString hstack chars)
      · exact .ok ⟨hstack, trivial⟩
      · exact .error _
      · exact .ok ⟨hstack, trivial⟩
  | escape =>
      rw [stepString]
      split
      · exact .ok ⟨hstack, trivial⟩
      · split
        · exact .ok ⟨hstack, trivial⟩
        · exact .error _
  | hex lead digits =>
      rw [stepString]
      split
      · exact .ok ⟨hstack, trivial⟩
      · split
        · exact yields_endUnit hstack _ _ _
        · exact .error _
  | pairBackslash lead =>
      rw [stepString]
      split
      · exact .ok ⟨hstack, trivial⟩
      · exact .error _
  | pairLetter lead =>
      rw [stepString]
      split
      · exact .ok ⟨hstack, trivial⟩
      · exact .error _

theorem yields_endNumber (n : Numeral) : Yields (endNumber stack n) := by
  rw [endNumber]
  split
  · exact .ok (inOrder_deliver hstack (.number _))
  · exact .error _

end Steps

theorem yields_stepBetween (hr : r.InOrder) (c : Char) : Yields (stepBetween r c) := by
  rw [stepBetween]
  split
  · exact .ok hr
  · split
    · exact yields_beginValue hr.stack c
    · split
      · exact yields_closeArray hr.stack
      · exact yields_beginValue hr.stack c
    · split
      · exact .error _
      · exact yields_beginValue hr.stack c
    · split_ifs
      · exact yields_closeArray hr.stack
      · exact .ok ⟨hr.stack, trivial⟩
      · exact .error _
    · split_ifs
      · exact yields_closeObject hr.stack
      · exact .ok ⟨hr.stack, trivial⟩
      · exact .error _
    · split_ifs
      · exact .ok ⟨hr.stack, trivial⟩
      · exact .error _
      · exact .error _
    · split
      · exact .ok ⟨hr.stack, trivial⟩
      · exact .error _
    · split_ifs
      · exact yields_closeObject hr.stack
      · exact .ok ⟨hr.stack, trivial⟩
      · exact .error _
    · exact .error _

theorem yields_step (hr : r.InOrder) (c : Char) : Yields (step r c) := by
  obtain ⟨stack, mode⟩ := r
  obtain ⟨hstack, hmode⟩ := hr
  rw [step.eq_def]
  dsimp only at hmode ⊢
  split
  · exact yields_stepString hstack _ c _
  · split_ifs
    · exact .ok (inOrder_deliver hstack hmode)
    · exact .ok ⟨hstack, hmode⟩
    · exact .error _
  · split
    · exact .ok ⟨hstack, trivial⟩
    · exact (yields_endNumber hstack _).bind fun s hs => yields_stepBetween hs c
    · exact .error _
  · exact yields_stepBetween ⟨hstack, hmode⟩ c

theorem yields_foldlM (cs : List Char) (hr : r.InOrder) : Yields (cs.foldlM step r) := by
  induction cs generalizing r with
  | nil => exact .ok hr
  | cons c cs ih =>
      rw [List.foldlM_cons]
      exact (yields_step hr c).bind fun s hs => ih hs

theorem inOrder_of_finishBetween (hr : r.InOrder) (h : finishBetween r = .ok v) : v.InOrder := by
  obtain ⟨stack, mode⟩ := r
  cases mode <;> simp only [finishBetween, Except.ok.injEq, reduceCtorEq] at h
  exact h ▸ hr.mode

theorem inOrder_of_finish (hr : r.InOrder) (h : finish r = .ok v) : v.InOrder := by
  rw [finish.eq_def] at h
  split at h
  · nomatch h
  · split at h
    · obtain ⟨s, hs, h⟩ := Except.bind_eq_ok_iff.mp h
      exact inOrder_of_finishBetween (yields_endNumber hr.stack _ s hs) h
    · nomatch h
  · exact inOrder_of_finishBetween hr h

end Reader

/-- What is read from a text has each object in order. -/
theorem inOrder_of_parse {text : String} {v : Json} (h : parse text = .ok v) : v.InOrder := by
  obtain ⟨r, hr, hv⟩ := Except.bind_eq_ok_iff.mp h
  have hstart : Reader.start.InOrder := ⟨List.forall_mem_nil _, trivial⟩
  exact Reader.inOrder_of_finish (Reader.yields_foldlM _ hstart r hr) hv

theorem nodup_keys_of_parse {text : String} {ms : Members} (h : parse text = .ok (.object ms)) :
    ms.keys.Nodup := by
  cases inOrder_of_parse h with
  | object hordered _ => exact hordered.nodup

end LedgerAudit.Json
