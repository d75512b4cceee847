import PageCache.Proofs.Client.Failures
import PageCache.Proofs.Shard.Rotation

/-!
# Pages that cannot be written, in the course of a history

After every history in which no resident page is taken over, and whatever pages the disk refuses to
write from then on, a shard without a free frame gives one away as long as there is an unpinned page
that is clean or can be written (`Client.unwedged_of_history`).
-/

namespace PageCache.Client

/-- On any pool whose recency lists were empty at the start and have room for every frame, and after
every history in which no resident page is taken over: a shard with no free frame, and with an id to
give out, is not blocked by the pages that the disk refuses to write, whatever pages these are. -/
theorem unwedged_of_history {b : Blueprint} {built : AnyPool} (hbuild : b.build = .ok built)
    (hunloaded : b.Unloaded) (hroomy : b.Roomy) (disk : Disk) (durable : Option Lsn)
    {log : List Entry} {c : Client built.layout built.size}
    (h : History NoTakeover (built.start disk durable) log c) (i : Fin built.layout.width)
    (faults : Faults) {id : PageId} (hfree : (c.system.pool.shard i).free = [])
    (hnext : (c.system.pool.shard i).nextId = some id) :
    Backed.Unwedged (built.layout.stripe i)
      ⟨c.system.pool.shard i, { c.system.disk with faults }⟩ id := by
  have hkept := (kept_of_history (kept_of_build hbuild hunloaded disk durable) h).system i
  have hrecency := recency_of_history hbuild hunloaded disk durable h i
  exact Backed.unwedged (w := ⟨_, _⟩) hkept hrecency hfree hnext
    (Blueprint.size_le_capacity hbuild hunloaded hroomy)

/-- Two frames, with a dirty page in the older and a clean one in the other. While page `0` cannot
be written, the first new page fails and the second takes the frame of page `1`. -/
theorem unwedged_of_history_two_frames : ∃ log c,
    History NoTakeover
        ((AnyPool.fresh (.alone .whole) 2).start (.onMedium (.memory .empty)) none) log c ∧
      log.map Entry.answer = [.ok (.placed ⟨0, by decide⟩ 0), .ok (.placed ⟨1, by decide⟩ 1),
        .ok (.truth true), .ok (.truth true)] ∧
      let w : Backed 2 Disk := ⟨c.system.pool.shard ⟨0, Nat.one_pos⟩,
        { c.system.disk with faults := ⟨fun _ => false, fun p => p.val = 0⟩ }⟩
      w.shard.free = [] ∧ w.shard.nextId = some ⟨2, by decide⟩ ∧
        w.Unwedged .whole ⟨2, by decide⟩ ∧
        w.shard.evictables = [⟨0, by decide⟩, ⟨1, by decide⟩] ∧
        (w.newPage .whole).result = .error (.storage (.io .writeFault)) ∧
        ((w.afterNewPages .whole 1).newPage .whole).result = .ok (⟨2, by decide⟩, 1) := by
  have h : History FetchesCreated
      ((AnyPool.fresh (.alone .whole) 2).start (.onMedium (.memory .empty)) none) [] _ := .start
  have h := h.step ⟨none, .newPage "a"⟩ trivial
  have h := h.step ⟨none, .newPage "b"⟩ trivial
  have h := h.step ⟨none, .unpin ⟨0, by decide⟩ true⟩ trivial
  have h := h.step ⟨none, .unpin ⟨1, by decide⟩ false⟩ trivial
  have hbuild : Blueprint.build (.alone 2 1 0 none) = .ok (.fresh (.alone .whole) 2) := rfl
  have h := (noTakeover_of_fetchesCreated (kept_of_build hbuild trivial _ none)
    (known_of_build hbuild trivial _ none) h).1
  exact ⟨_, _, h, rfl, rfl, rfl,
    unwedged_of_history hbuild trivial trivial _ none h ⟨0, Nat.one_pos⟩ _ rfl rfl, rfl, rfl, rfl⟩

end PageCache.Client
