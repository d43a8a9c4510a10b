import LedgerAudit.Proofs.Basic
import LedgerAudit.Proofs.Message.Faithful

/-!
# Formats built in levels

Some messages hold messages of their own type. Their format is built level by level, each level
over the one below. Every level that is enough for a message gives the same records, so the
records of the format are those of one more level over the format itself.
-/

namespace LedgerAudit.Message

section Observe

variable {F ι β : Type} {formatAt : Nat → F} {nest : F → F} {size : ι → Nat}
  (observe : F → ι → β) (hsucc : ∀ level, formatAt (level + 1) = nest (formatAt level))
  (hpos : ∀ i, 0 < size i)
  (hcongr : ∀ {f g : F} {i : ι},
    (∀ j, size j < size i → observe f j = observe g j) → observe (nest f) i = observe (nest g) i)
include hsucc hpos hcongr

/-- Every level that is enough for a thing shows the same of it, when one level up only what is
seen of smaller things matters. -/
theorem observe_formatAt {level : Nat} {i : ι} (h : size i ≤ level) :
    observe (formatAt level) i = observe (formatAt (size i)) i := by
  induction level using Nat.strongRecOn generalizing i with
  | ind level ih =>
      have hi := hpos i
      obtain ⟨a, rfl⟩ : ∃ a, level = a + 1 := ⟨level - 1, by omega⟩
      obtain ⟨b, hb⟩ : ∃ b, size i = b + 1 := ⟨size i - 1, by omega⟩
      rw [hb, hsucc, hsucc]
      refine hcongr fun j hj => ?_
      rw [ih a (by omega) (by omega), ih b (by omega) (by omega)]

/-- What is shown at a sufficient level is what one more level over it shows. -/
theorem observe_eq_nest {f : F} (hf : ∀ i, observe f i = observe (formatAt (size i)) i) (i : ι) :
    observe f i = observe (nest f) i := by
  have hi := hpos i
  obtain ⟨below, hbelow⟩ : ∃ below, size i = below + 1 := ⟨size i - 1, by omega⟩
  rw [hf, hbelow, hsucc]
  refine hcongr fun j hj => ?_
  rw [hf, observe_formatAt observe hsucc hpos hcongr (by omega)]

end Observe

/-- A type whose values hold values of the type, with a format for every level. Only the records
of the members of a message enter its records one level up. -/
structure Levels (σ : Type) where
  members : σ → List σ
  depth : σ → Nat
  depth_pos : ∀ m, 0 < depth m
  depth_lt_of_mem : ∀ {m member}, member ∈ members m → depth member < depth m
  formatAt : Nat → Format σ
  nest : Format σ → Format σ
  formatAt_succ : ∀ level, formatAt (level + 1) = nest (formatAt level)
  records_congr : ∀ {f g : Format σ} {m},
    (∀ member ∈ members m, f.records member = g.records member) →
      (nest f).records m = (nest g).records m

namespace Levels

variable {σ : Type}

variable (l : Levels σ)

/-- What holds of a message as soon as it holds of its members holds of every message. -/
theorem induction {P : σ → Prop} (step : ∀ m, (∀ member ∈ l.members m, P member) → P m) (m : σ) :
    P m := by
  induction hd : l.depth m using Nat.strongRecOn generalizing m with
  | ind d ih =>
      subst hd
      exact step m fun member h => ih _ (l.depth_lt_of_mem h) member rfl

variable {l} {f : Format σ} (hf : ∀ m, f.records m = (l.formatAt (l.depth m)).records m)
include hf

/-- The records of a message, one level unrolled. -/
theorem records_eq_nest (m : σ) : f.records m = (l.nest f).records m :=
  observe_eq_nest Format.records l.formatAt_succ l.depth_pos
    (fun h => l.records_congr fun member hmember => h member (l.depth_lt_of_mem hmember)) hf m

/-- The bytes tell every message as soon as one level more tells what the level below tells. -/
theorem faithful (step : ∀ {a b},
      (∀ member ∈ l.members a, ∀ other, f.encode member = f.encode other → member = other) →
      (l.nest f).encode a = (l.nest f).encode b → a = b) :
    f.Faithful := by
  intro a
  induction a using l.induction with
  | step a ih =>
      intro b h
      refine step (fun member hmember other => @ih member hmember other) ?_
      rw [Format.encode, Format.encode, ← records_eq_nest hf, ← records_eq_nest hf]
      exact h

end Levels

end LedgerAudit.Message
