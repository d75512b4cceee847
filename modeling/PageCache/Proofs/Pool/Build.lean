import PageCache.Pool.Build
import PageCache.Proofs.Pool.Moves

/-!
# Pools to start with

A blueprint may preload the recency list of a pool with frames that hold no page. One that does not
is `Unloaded`: whatever it builds has only free frames, no pages, and recency lists that are empty
and have room for `Blueprint.capacity` frames. That is room for every frame if the blueprint is
`Roomy`, as each one without a preload is.
-/

namespace PageCache

namespace Blueprint

/-- No frame counts as evictable from the start. -/
def Unloaded : Blueprint → Prop
  | alone _ _ _ (some preload) => preload.tracked = []
  | _ => True

/-- How many frames the recency list of a shard can tell of. -/
def capacity : Blueprint → Nat
  | alone _ _ _ (some preload) => preload.capacity
  | alone size _ _ none => size
  | split size _ => size
  | checked config => config.frames.toNat

/-- How many frames a shard has. -/
def frames : Blueprint → Nat
  | alone size _ _ _ | split size _ => size
  | checked config => config.frames.toNat

/-- A recency list can tell of every frame of its shard. -/
def Roomy : Blueprint → Prop
  | alone size _ _ (some preload) => size ≤ preload.capacity
  | _ => True

/-- A pool without a preload that counts is the fresh pool of its layout, but for how many frames
its recency lists can tell of. -/
theorem eq_of_build {b : Blueprint} {built : AnyPool} (hbuild : b.build = .ok built)
    (h : b.Unloaded) : ∃ layout : Layout, built = ⟨layout, b.frames,
      ⟨.ofFn fun i => { Shard.fresh (layout.stripe i) b.frames with recency := .empty b.capacity },
        layout.first⟩⟩ := by
  cases b with
  | alone size count index preload =>
    rw [build] at hbuild
    split at hbuild
    · exact absurd hbuild (by simp)
    next stripe _ =>
    refine ⟨.alone stripe, ?_⟩
    cases preload with
    | none => exact (Except.ok.inj hbuild).symm
    | some preload =>
      obtain ⟨capacity, tracked⟩ := preload
      -- a preload that tracks nothing sets the capacity and no more
      obtain rfl : tracked = [] := h
      rw [← Except.ok.inj hbuild]
      simp only [AnyPool.fresh, Pool.fresh, Vector.map_ofFn]
      rfl
  | split size count =>
    rw [build] at hbuild
    split at hbuild
    · exact absurd hbuild (by simp)
    · exact ⟨_, (Except.ok.inj hbuild).symm⟩
  | checked config =>
    rw [build] at hbuild
    split at hbuild
    · exact absurd hbuild (by simp)
    next built' hconfig =>
      obtain rfl := Except.ok.inj hbuild
      rw [AnyPool.ofConfig] at hconfig
      split at hconfig
      · exact absurd hconfig (by simp)
      split at hconfig
      · exact ⟨_, (Except.ok.inj hconfig).symm⟩
      · exact absurd hconfig (by simp)

theorem shard_of_build {b : Blueprint} {built : AnyPool} (hbuild : b.build = .ok built)
    (h : b.Unloaded) (i : Fin built.layout.width) :
    built.pool.shard i =
      { Shard.fresh (built.layout.stripe i) built.size with recency := .empty b.capacity } := by
  obtain ⟨layout, rfl⟩ := eq_of_build hbuild h
  exact Vector.getElem_ofFn i.isLt

/-- With or without a preload, a shard is fresh but for its recency list. -/
theorem fresh_of_build {b : Blueprint} {built : AnyPool} (hbuild : b.build = .ok built)
    (i : Fin built.layout.width) : ∃ recency, built.pool.shard i =
      { Shard.fresh (built.layout.stripe i) built.size with recency } := by
  cases b with
  | alone size count index preload =>
    cases preload with
    | none => exact ⟨_, shard_of_build hbuild trivial i⟩
    | some preload =>
      rw [build] at hbuild
      split at hbuild
      · exact absurd hbuild (by simp)
      next stripe _ =>
      obtain rfl := Except.ok.inj hbuild
      refine ⟨.ofTracked preload.capacity preload.tracked, ?_⟩
      have hfresh : (Pool.fresh (.alone stripe) size).shard i = .fresh _ size := Pool.shard_fresh i
      refine (Vector.getElem_map ..).trans ?_
      exact congrArg
        (fun sh : Shard size => { sh with recency := .ofTracked preload.capacity preload.tracked })
        hfresh
  | split | checked => exact ⟨_, shard_of_build hbuild trivial i⟩

theorem nextId_of_build {b : Blueprint} {built : AnyPool} (hbuild : b.build = .ok built)
    (i : Fin built.layout.width) :
    (built.pool.shard i).nextId = some (built.layout.stripe i).first := by
  obtain ⟨recency, hshard⟩ := fresh_of_build hbuild i
  rw [hshard]
  rfl

theorem cursor_of_build {b : Blueprint} {built : AnyPool} (hbuild : b.build = .ok built)
    (h : b.Unloaded) : built.pool.cursor = built.layout.first := by
  obtain ⟨layout, rfl⟩ := eq_of_build hbuild h
  rfl

theorem size_le_capacity {b : Blueprint} {built : AnyPool} (hbuild : b.build = .ok built)
    (h : b.Unloaded) (hroomy : b.Roomy) : built.size ≤ b.capacity := by
  obtain ⟨layout, rfl⟩ := eq_of_build hbuild h
  show b.frames ≤ b.capacity
  cases b with
  | alone size count index preload =>
    cases preload with
    | none => exact Nat.le_refl _
    | some preload => exact hroomy
  | split | checked => exact Nat.le_refl _

variable {b : Blueprint} {built : AnyPool} {δ : Type}

theorem kept_of_build (hbuild : b.build = .ok built) (h : b.Unloaded) (disk : δ) :
    (⟨built.pool, disk⟩ : System built.layout built.size δ).Kept b.capacity := by
  intro i
  show (built.pool.shard i).Kept _ _ (built.pool.shard i).free
  rw [shard_of_build hbuild h i]
  exact Shard.Kept.fresh _ _

variable [PageStore δ] [LawfulStore δ]

theorem slot_of_build (hbuild : b.build = .ok built) (h : b.Unloaded) (disk : δ) (p : PageId) :
    (⟨built.pool, disk⟩ : System built.layout built.size δ).view.slot p = none := by
  show (if _ then (built.pool.shard _).slot p else none) = none
  split
  · rw [shard_of_build hbuild h, Shard.slot_eq_none_iff]
    exact Std.ExtTreeMap.getElem?_empty
  · rfl

end Blueprint

end PageCache
