import Mathlib.Data.List.Nodup
import PageCache.Proofs.Shard.Failures

/-!
# When a shard is full

A shard says that it is full when its free list is empty and its recency list names no victim.
Neither list says anything of pins, so a frame that fell off both, with nobody's page in it or with
a page that nobody has pinned, would be out of use for good. No frame does: `FullWhenPinned` says
that a shard is full if and only if every frame has a page in it that somebody has pinned, and
`Backed.fullWhenPinned` proves it where the records agree and the recency list has room for every
frame.
-/

namespace PageCache

variable {size : Nat} {δ : Type} [PageStore δ]

/-- Every frame has a page in it that is pinned. -/
def Shard.AllPinned (sh : Shard size) : Prop :=
  ∀ f : Fin size, ∃ p : PageId, sh.table[p]? = some f ∧ (sh.frame f).pins ≠ 0

/-- The resident pages that are pinned, in ascending order. -/
def Shard.pinnedPages (sh : Shard size) : List PageId :=
  sh.residents.filter fun p => sh.pinCount? p ≠ some 0

/-- Being full is the truth: the frames are all in use when a shard of stripe `s` says in state `w`
that it has none, and it says so when they are. -/
structure Backed.FullWhenPinned (s : Stripe) (w : Backed size δ) : Prop where
  fetch_full_iff : ∀ p, s.Owns p → w.shard.table[p]? = none →
    ((w.fetch s p).result = .error (.storage .poolFull) ↔ w.shard.AllPinned)
  newPage_full_iff : w.shard.nextId ≠ none →
    ((w.newPage s).result = .error (.storage .poolFull) ↔ w.shard.AllPinned)
  fetch_not_full : w.shard.pinnedPages.length < size →
    ∀ p, (w.fetch s p).result ≠ .error (.storage .poolFull)
  newPage_not_full : w.shard.pinnedPages.length < size →
    (w.newPage s).result ≠ .error (.storage .poolFull)

variable {w w' : Backed size δ} {s : Stripe} {capacity : Nat} {p : PageId}

namespace Shard

variable {sh : Shard size} {spare : List (Fin size)} {f : Fin size}

theorem mem_pinnedPages (hp : sh.table[p]? = some f) (hpins : (sh.frame f).pins ≠ 0) :
    p ∈ sh.pinnedPages := by
  refine List.mem_filter.mpr ⟨?_, ?_⟩
  · rw [residents, Std.ExtTreeMap.mem_keys, Std.ExtTreeMap.mem_iff_isSome_getElem?, hp]
    rfl
  · simpa [pinCount?, hp] using hpins

/-- If every frame is in use, there are as many pinned pages as frames. -/
theorem AllPinned.size_le (hall : sh.AllPinned) : size ≤ sh.pinnedPages.length := by
  choose page hpage hpins using hall
  -- a page lies in one frame, so different frames have different pages
  have hinjective : Function.Injective page := by
    intro f g hfg
    exact Option.some.inj ((hpage f).symm.trans (hfg ▸ hpage g))
  have hnodup : ((List.finRange size).map page).Nodup :=
    (List.nodup_finRange size).map hinjective
  have hsub : (List.finRange size).map page ⊆ sh.pinnedPages := by
    intro p hp
    obtain ⟨f, -, rfl⟩ := List.mem_map.mp hp
    exact mem_pinnedPages (hpage f) (hpins f)
  have hle := hnodup.length_le_of_subset hsub
  rwa [List.length_map, List.length_finRange] at hle

/-- The frames are all in use exactly if there is none to be found. -/
theorem Kept.allPinned_iff (h : sh.Kept s capacity sh.free) (hroomy : size ≤ capacity) :
    sh.AllPinned ↔ ¬ sh.HasRoom := by
  constructor
  · rintro hall (hfree | ⟨k, hk⟩)
    · obtain ⟨f, hf⟩ := List.exists_mem_of_ne_nil _ hfree
      obtain ⟨p, hp, -⟩ := hall f
      exact h.not_mem_spare hp hf
    · obtain ⟨q, f, rfl, -, hzero⟩ := h.tracked hk
      obtain ⟨p, -, hpins⟩ := hall f
      exact hpins hzero
  · intro hnone f
    by_contra hidle
    push Not at hidle
    exact hnone (h.hasRoom hroomy f hidle)

end Shard

/-- A search for a frame is in vain if and only if there is none to be found. -/
theorem Acquisition.full_iff (h : w.shard.Kept s capacity w.shard.free)
    {r : Except Failure (Fin size)} (ha : Acquisition w r w') :
    r = .error (.storage .poolFull) ↔ ¬ w.shard.HasRoom := by
  cases ha with
  | full hfree hvictim =>
    refine iff_of_true rfl ?_
    rintro (hsome | ⟨k, hk⟩)
    · exact hsome hfree
    · rw [h.chained.victim_eq_none hvictim k] at hk
      exact absurd hk (by simp)
  | free hfree =>
    refine iff_of_false (by simp) (not_not_intro (.inl ?_))
    rw [hfree]
    exact List.cons_ne_nil _ _
  | clean _ hvictim | written _ hvictim | unwritten _ hvictim =>
    exact iff_of_false (by simp)
      (not_not_intro (.inr ⟨_, (h.chained.victim_eq_some hvictim).1⟩))

namespace Backed

/-- A fetch is told that there is no frame exactly if the search for one is. -/
theorem fetch_full_iff_acquire (howns : s.Owns p) (hp : w.shard.table[p]? = none) :
    (w.fetch s p).result = .error (.storage .poolFull) ↔
      w.acquire.result = .error (.storage .poolFull) := by
  rw [fetch, if_pos howns, hp]
  cases hacquired : w.acquire.result with
  | error e => rw [Outcome.andThen_of_error hacquired]
  | ok f =>
    rw [Outcome.andThen_of_ok hacquired]
    refine iff_of_false ?_ (by simp)
    -- what goes wrong from here is the disk's fault
    rw [Outcome.result_after, load]
    split <;> simp

theorem newPage_full_iff_acquire (hnext : w.shard.nextId ≠ none) :
    (w.newPage s).result = .error (.storage .poolFull) ↔
      w.acquire.result = .error (.storage .poolFull) := by
  have hcreation := w.creation s
  generalize (w.newPage s).result = r, (w.newPage s).state = w' at hcreation
  cases hcreation with
  | exhausted hnone => exact absurd hnone hnext
  | unplaced _ hsearch => simp only [hsearch, Except.error.injEq]
  | foreign _ hsearch => exact iff_of_false (by simp [Stripe.foreign]) (by simp [hsearch])
  | made _ hsearch => exact iff_of_false (by simp) (by simp [hsearch])

/-- Where the records agree, and the recency list has room for every frame, the shard is full when
every frame has a pinned page in it, and then only. -/
theorem fullWhenPinned (h : w.shard.Kept s capacity w.shard.free) (hroomy : size ≤ capacity) :
    w.FullWhenPinned s := by
  have hiff : w.acquire.result = .error (.storage .poolFull) ↔ w.shard.AllPinned :=
    (h.acquisition.full_iff h).trans (h.allPinned_iff hroomy).symm
  have hfull {w' : Backed size δ} (ha : Acquisition w (.error (.storage .poolFull)) w') :
      w.shard.AllPinned :=
    (h.allPinned_iff hroomy).mpr ((ha.full_iff h).mp rfl)
  refine
    { fetch_full_iff := fun p howns hp => (fetch_full_iff_acquire howns hp).trans hiff
      newPage_full_iff := fun hnext => (newPage_full_iff_acquire hnext).trans hiff
      fetch_not_full := fun hfew p hresult => ?_
      newPage_not_full := fun hfew hresult => ?_ }
  · obtain ha | ⟨_, _, _, -, -, hio, -⟩ := fetch_fails h hresult
    · exact absurd (hfull ha).size_le (Nat.not_le.mpr hfew)
    · exact absurd hio (by simp)
  · obtain ⟨hexhausted, -⟩ | ha := newPage_fails h hresult
    · exact absurd hexhausted (by simp)
    · exact absurd (hfull ha).size_le (Nat.not_le.mpr hfew)

end Backed

end PageCache
