import Mathlib.Data.List.Nodup
import PageCache.Proofs.Recency.Order
import PageCache.Proofs.Shard.Cases

/-!
# The pages that may be evicted

A recency list is about frames. `Shard.evictables` lists the pages that lie in them, the next to go
first. Where the records agree there is one for each frame of the list, no page comes twice, and if
the list has room for every frame they are the resident pages that nobody has pinned
(`Shard.Kept.mem_evictables_iff`). So no frame is out of use where nothing is pinned
(`Shard.Kept.evictableCount_add_freeCount`).
-/

namespace PageCache

variable {size : Nat}

namespace Shard

/-- The page in the frame numbered `k`. -/
def holder? (sh : Shard size) (k : Nat) : Option PageId :=
  if h : k < size then (sh.frame ⟨k, h⟩).holds else none

/-- The pages that may be evicted, the next to go first. -/
def evictables (sh : Shard size) : List PageId :=
  sh.recency.order.filterMap sh.holder?

variable {sh : Shard size} {s : Stripe} {capacity : Nat} {spare : List (Fin size)} {p : PageId}
variable {f : Fin size} {k : Nat}

@[simp]
theorem holder?_val (sh : Shard size) (f : Fin size) : sh.holder? f.val = (sh.frame f).holds :=
  dif_pos f.isLt

theorem holder?_eq_some_iff :
    sh.holder? k = some p ↔ ∃ f : Fin size, f.val = k ∧ (sh.frame f).holds = some p := by
  constructor
  · intro h
    unfold holder? at h
    split at h
    · next hk => exact ⟨⟨k, hk⟩, rfl, h⟩
    · exact absurd h (by simp)
  · rintro ⟨f, rfl, hp⟩
    rw [holder?_val, hp]

/-- Nothing counts but the recency list and the pages that the frames name. -/
theorem evictables_congr {sh' : Shard size} (hrecency : sh'.recency = sh.recency)
    (hholds : ∀ f, (sh'.frame f).holds = (sh.frame f).holds) : sh'.evictables = sh.evictables := by
  have hholder : sh'.holder? = sh.holder? := by
    funext k
    unfold holder?
    split
    · exact hholds _
    · rfl
  rw [evictables, evictables, hrecency, hholder]

/-- A flush changes nothing about who may be evicted. -/
theorem SameButFlags.evictables {sh' : Shard size} (h : sh.SameButFlags sh') :
    sh'.evictables = sh.evictables :=
  evictables_congr h.recency h.holds

/-- The pages are those in the frames of the queue behind the recency list. -/
theorem evictables_eq {q : Recency.Queue} (h : sh.recency.Represents q) :
    sh.evictables = q.frames.filterMap sh.holder? := by
  rw [evictables, h.order_eq]

namespace Kept

/-- What is tracked is a frame with an unpinned page in it. -/
theorem tracked_of_mem (h : sh.Kept s capacity spare) {q : Recency.Queue}
    (hq : sh.recency.Represents q) (hk : k ∈ q.frames) :
    ∃ (p : PageId) (f : Fin size), f.val = k ∧ sh.table[p]? = some f ∧
      (sh.frame f).holds = some p ∧ (sh.frame f).pins = 0 := by
  obtain ⟨p, f, hf, hp, hpins⟩ := h.tracked ((hq.contains_iff k).mpr hk)
  exact ⟨p, f, hf, hp, h.holds hp, hpins⟩

/-- No frame of the queue is passed over. -/
theorem map_holder? (h : sh.Kept s capacity spare) {q : Recency.Queue}
    (hq : sh.recency.Represents q) : q.frames.map sh.holder? = sh.evictables.map some := by
  rw [evictables_eq hq, List.map_filterMap]
  have hsome (k : Nat) (hk : k ∈ q.frames) :
      (sh.holder? k).map some = some (sh.holder? k) := by
    obtain ⟨p, f, rfl, -, hholds, -⟩ := h.tracked_of_mem hq hk
    rw [holder?_val, hholds]
    rfl
  rw [List.filterMap_congr hsome]
  exact (congrFun List.filterMap_eq_map' q.frames).symm

theorem table_of_holds (h : sh.Kept s capacity spare) (hp : (sh.frame f).holds = some p) :
    sh.table[p]? = some f := by
  rcases h.covered f with hf | ⟨q, hq⟩
  · rw [(h.spare_idle hf).holds] at hp
    exact absurd hp (by simp)
  · obtain rfl : q = p := Option.some.inj ((h.holds hq).symm.trans hp)
    exact hq

/-- No page is up for eviction twice. -/
theorem nodup_evictables (h : sh.Kept s capacity spare) {q : Recency.Queue}
    (hq : sh.recency.Represents q) : sh.evictables.Nodup := by
  rw [evictables_eq hq]
  refine hq.nodup.filterMap fun j k p hj hk => ?_
  obtain ⟨f, rfl, hf⟩ := holder?_eq_some_iff.mp hj
  obtain ⟨g, rfl, hg⟩ := holder?_eq_some_iff.mp hk
  have hfg : some f = some g := (h.table_of_holds hf).symm.trans (h.table_of_holds hg)
  rw [Option.some.inj hfg]

/-- With room for every frame, the pages that may be evicted are those that nobody has pinned. -/
theorem mem_evictables_iff (h : sh.Kept s capacity spare) {q : Recency.Queue}
    (hq : sh.recency.Represents q) (hroomy : size ≤ capacity) :
    p ∈ sh.evictables ↔ sh.pinCount? p = some 0 := by
  rw [evictables_eq hq, List.mem_filterMap, pinCount?, Option.map_eq_some_iff]
  constructor
  · rintro ⟨k, hk, hp⟩
    obtain ⟨q, f, rfl, hq, hholds, hpins⟩ := h.tracked_of_mem hq hk
    rw [holder?_val, hholds] at hp
    exact ⟨f, Option.some.inj hp ▸ hq, hpins⟩
  · rintro ⟨f, hp, hpins⟩
    refine ⟨f, (hq.contains_iff f).mp (h.evictable hroomy hp hpins), ?_⟩
    rw [holder?_val, h.holds hp]

/-- If nobody has a page pinned, a frame that is not free has a page in it that may be evicted. -/
theorem evictableCount_add_freeCount (h : sh.Kept s capacity sh.free) {q : Recency.Queue}
    (hq : sh.recency.Represents q) (hroomy : size ≤ capacity)
    (hunpinned : ∀ {p : PageId} {f : Fin size}, sh.table[p]? = some f → (sh.frame f).pins = 0) :
    sh.evictableCount + sh.freeCount = size := by
  have hnodup : (q.frames ++ sh.free.map Fin.val).Nodup := by
    refine List.nodup_append.mpr ⟨hq.nodup, h.spare_nodup.map fun _ _ => Fin.ext, ?_⟩
    rintro _ hk k hfree rfl
    obtain ⟨f, hf, hfk⟩ := List.mem_map.mp hfree
    obtain ⟨p, g, hgk, hp, -⟩ := h.tracked_of_mem hq hk
    obtain rfl : g = f := Fin.ext (hgk.trans hfk.symm)
    exact h.not_mem_spare hp hf
  -- every frame is free or holds a page, and then the page may be evicted, since it has no pins
  have hmem (k : Nat) : k ∈ q.frames ++ sh.free.map Fin.val ↔ k ∈ List.range size := by
    rw [List.mem_append, List.mem_range]
    constructor
    · rintro (hk | hk)
      · exact h.lt_of_tracked ((hq.contains_iff k).mpr hk)
      · obtain ⟨f, -, rfl⟩ := List.mem_map.mp hk
        exact f.isLt
    · intro hk
      rcases h.covered ⟨k, hk⟩ with hfree | ⟨p, hp⟩
      · exact .inr (List.mem_map.mpr ⟨⟨k, hk⟩, hfree, rfl⟩)
      · exact .inl ((hq.contains_iff k).mp (h.evictable hroomy hp (hunpinned hp)))
  have hperm := (List.perm_ext_iff_of_nodup hnodup List.nodup_range).mpr hmem
  have hlength := hperm.length_eq
  rw [List.length_append, List.length_map, List.length_range] at hlength
  rw [evictableCount, hq.size_eq]
  exact hlength

end Kept

end Shard

end PageCache
