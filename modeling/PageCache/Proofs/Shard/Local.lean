import PageCache.Proofs.Shard.Simulation

/-!
# What a shard does is its own business

All that a shard has to do with its disk is about pages of its stripe. So on a store that keeps its
pages apart it neither notices what becomes of other pages nor changes anything about them.
`Backed.Twins` says of two states that they are the same as far as a shard of stripe `s` can see.
-/

namespace PageCache

open PageStore (after)
open PagewiseStore (part Apart)

variable {δ : Type} [PageStore δ] [PagewiseStore δ] {P : PageId → Prop}

/-! ## Two stores with some pages in common -/

namespace PagewiseStore

/-- The same is in both stores of every page of `P`, and both keep their pages apart. -/
structure SameOn (P : PageId → Prop) (d d' : δ) : Prop where
  apart : Apart d
  apart' : Apart d'
  part : ∀ {p}, P p → part d p = part d' p

namespace SameOn

variable {d d' d'' : δ}

theorem refl (P : PageId → Prop) (h : Apart d) : SameOn P d d :=
  ⟨h, h, fun _ => rfl⟩

/-- Stores with the same pages may be named in either order. -/
theorem symm (h : SameOn P d d') : SameOn P d' d :=
  ⟨h.apart', h.apart, fun hp => (h.part hp).symm⟩

/-- Stores may have the same pages as one between them. -/
theorem trans (h : SameOn P d d') (h' : SameOn P d' d'') : SameOn P d d'' :=
  ⟨h.apart, h'.apart', fun hp => (h.part hp).trans (h'.part hp)⟩

end SameOn

/-- A call shows and changes nothing but the page it is about. -/
theorem simulation_sameOn (P : PageId → Prop) : StoreSimulation P (SameOn P : δ → δ → Prop) where
  answer h hp call := answer_congr call h.apart h.apart' (h.part hp)
  after {d d' p} h hp call :=
    { apart := apart_after p call h.apart
      apart' := apart_after p call h.apart'
      part := fun {q} hq => by
        by_cases hqp : q = p
        · subst hqp
          exact part_congr call h.apart h.apart' (h.part hq)
        · rw [part_of_ne d call hqp, part_of_ne d' call hqp]
          exact h.part hq }

/-- Calls on pages of `P` leave the others as they were. -/
theorem simulation_spares (P : PageId → Prop) (d₀ : δ) :
    StoreSimulation P fun d d' : δ => d = d' ∧ ∀ {q}, ¬ P q → part d q = part d₀ q where
  answer h _ _ := h.1 ▸ rfl
  after {d d' p} h hp call := by
    refine ⟨h.1 ▸ rfl, fun {q} hq => ?_⟩
    have hqp : q ≠ p := fun hqp => hq (hqp ▸ hp)
    exact (part_of_ne d call hqp).trans (h.2 hq)

end PagewiseStore

open PagewiseStore (SameOn)

/-! ## Twins -/

namespace Backed

variable {size : Nat} {s : Stripe} {w w' w'' : Backed size δ}

/-- Two states of a shard of stripe `s` in which it sees the same. -/
abbrev Twins (s : Stripe) (w w' : Backed size δ) : Prop :=
  Mirror s.Owns (SameOn s.Owns) w w'

namespace Twins

theorem refl (hconfined : w.shard.Confined s.Owns) (hapart : Apart w.disk) : Twins s w w :=
  ⟨rfl, hconfined, .refl s.Owns hapart⟩

/-- Which of two twins comes first does not matter. -/
theorem symm (h : Twins s w w') : Twins s w' w :=
  ⟨h.shard.symm, h.shard ▸ h.confined, h.disk.symm⟩

/-- The twin of a twin is a twin. -/
theorem trans (h : Twins s w w') (h' : Twins s w' w'') : Twins s w w'' :=
  ⟨h.shard.trans h'.shard, h.confined, h.disk.trans h'.disk⟩

end Twins

end Backed

end PageCache
