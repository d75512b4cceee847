import PageCache.Proofs.Client.Kept

/-!
# The structure of a shard

What there is to rely on between two operations of a pool, of any kind and on any disk:
`Shard.Intact` says that the page table, the free list, the frames and the recency list of a shard
tell one story. `Client.intact_of_history` is the statement that they do, after every history in
which no resident page is taken over; and that is every history in which only created pages are
fetched.
-/

namespace PageCache

/-- The records of a shard whose recency list has room for `capacity` frames tell one story. -/
structure Shard.Intact {size : Nat} (sh : Shard size) (capacity : Nat) : Prop where
  /-- No frame is shared. -/
  injective : ∀ {p q : PageId} {f : Fin size}, sh.table[p]? = some f → sh.table[q]? = some f → p = q
  /-- A frame names the page that lies in it. -/
  holds : ∀ {p : PageId} {f : Fin size}, sh.table[p]? = some f → (sh.frame f).holds = some p
  free_nodup : sh.free.Nodup
  free_unmapped : ∀ {p : PageId} {f : Fin size}, f ∈ sh.free → sh.table[p]? ≠ some f
  /-- A free frame has nothing to tell but old bytes. -/
  free_idle : ∀ {f : Fin size}, f ∈ sh.free →
    (sh.frame f).holds = none ∧ (sh.frame f).pins = 0 ∧ (sh.frame f).dirty = false
  covered : ∀ f : Fin size, f ∈ sh.free ∨ ∃ p : PageId, sh.table[p]? = some f
  /-- A frame that may be evicted has a page, and nobody has it pinned. -/
  tracked : ∀ {k : Nat}, sh.recency.contains k = true →
    ∃ (p : PageId) (f : Fin size), f.val = k ∧ sh.table[p]? = some f ∧ (sh.frame f).pins = 0
  /-- With room for every frame, each such frame may be evicted. -/
  evictable : size ≤ capacity → ∀ {p : PageId} {f : Fin size}, sh.table[p]? = some f →
    (sh.frame f).pins = 0 → sh.recency.contains f = true

/-- Records in agreement are intact. -/
theorem Shard.Kept.intact {size capacity : Nat} {sh : Shard size} {s : Stripe}
    (h : sh.Kept s capacity sh.free) : sh.Intact capacity where
  injective := h.injective
  holds := h.holds
  free_nodup := h.spare_nodup
  free_unmapped hf hp := h.not_mem_spare hp hf
  free_idle {f} hf := by
    have hidle : (sh.frame f).released = sh.frame f := h.spare_idle hf
    rw [← hidle]
    exact ⟨rfl, rfl, rfl⟩
  covered := h.covered
  tracked := h.tracked
  evictable := h.evictable

namespace Client

/-- After every history in which no resident page is taken over, whatever the operations, their
arguments, their order and their failures, the records of every shard tell one story. Where only
created pages are fetched nothing is taken over. -/
theorem intact_of_history {b : Blueprint} {built : AnyPool} (hbuild : b.build = .ok built)
    (hunloaded : b.Unloaded) (disk : Disk) (durable : Option Lsn) {log : List Entry}
    {c : Client built.layout built.size} :
    (History NoTakeover (built.start disk durable) log c →
        ∀ i, (c.system.pool.shard i).Intact b.capacity) ∧
      (History FetchesCreated (built.start disk durable) log c →
        History NoTakeover (built.start disk durable) log c) := by
  have hkept := kept_of_build hbuild hunloaded disk durable
  have hknown := known_of_build hbuild hunloaded disk durable
  exact ⟨fun h i => ((kept_of_history hkept h).system i).intact,
    fun h => (noTakeover_of_fetchesCreated hkept hknown h).1⟩

/-- With one frame: two pages in turn, one coming back from the disk, and a fetch that fails between
them because the other is pinned. -/
theorem intact_one_frame : ∃ log c,
    History FetchesCreated
        ((AnyPool.fresh (.alone .whole) 1).start (.onMedium (.memory .empty)) none) log c ∧
      log.map Entry.answer = [.ok (.placed ⟨0, by decide⟩ 0), .ok (.truth true),
        .ok (.placed ⟨1, by decide⟩ 0), .error (.storage .poolFull), .ok (.truth true),
        .ok (.placed ⟨0, by decide⟩ 0)] ∧
      ∀ i, (c.system.pool.shard i).Intact 1 := by
  have h : History FetchesCreated
      ((AnyPool.fresh (.alone .whole) 1).start (.onMedium (.memory .empty)) none) [] _ := .start
  have h := h.step ⟨none, .newPage "a"⟩ trivial
  have h := h.step ⟨none, .unpin ⟨0, by decide⟩ true⟩ trivial
  have h := h.step ⟨none, .newPage "b"⟩ trivial
  have h := h.step ⟨none, .fetch ⟨0, by decide⟩ "a"⟩ (List.mem_cons_of_mem _ List.mem_cons_self)
  have h := h.step ⟨none, .unpin ⟨1, by decide⟩ false⟩ trivial
  have h := h.step ⟨none, .fetch ⟨0, by decide⟩ "a"⟩ (List.mem_cons_of_mem _ List.mem_cons_self)
  have hbuild : Blueprint.build (.alone 1 1 0 none) = .ok (.fresh (.alone .whole) 1) := rfl
  have hspared := (intact_of_history hbuild trivial (.onMedium (.memory .empty)) none).2 h
  exact ⟨_, _, h, rfl,
    (intact_of_history hbuild trivial (.onMedium (.memory .empty)) none).1 hspared⟩

end Client

end PageCache
