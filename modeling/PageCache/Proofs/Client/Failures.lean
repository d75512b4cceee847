import PageCache.Proofs.Client.Evolves
import PageCache.Proofs.Client.Kept
import PageCache.Proofs.Shard.Cases
import PageCache.Proofs.Shard.Failures
import PageCache.Proofs.Shard.Tracking

/-!
# Failures in the course of a history

After every history in which no resident page is taken over, whatever the operations and the faults
of the disk, each shard fails gently from there (`Client.fails_gently`). That takes two things of
the shard: its records agree, and its recency list had nothing but requests since it was empty
(`Client.recency_of_history`).
-/

namespace PageCache

/-- Whatever a shard is asked, it does nothing to its recency list but send requests. -/
theorem Backed.becomes_ask {size : Nat} {δ : Type} [PageStore δ] (s : Stripe) (w : Backed size δ)
    (op : ShardOp size) : w.shard.recency.Becomes (w.ask s op).shard.recency := by
  cases op with
  | fetch p => exact becomes_fetch s w p
  | newPage => exact becomes_newPage s w
  | unpin p dirty => exact becomes_unpin s w p dirty
  | delete p => exact becomes_delete s w p
  | flush p =>
    have hsame := (Backed.sameButFlags_flush s w p).recency
    exact hsame.symm ▸ .refl _
  | flushAll visit =>
    have hsame := (Backed.sameButFlags_flushAll visit w).recency
    exact hsame.symm ▸ .refl _
  | reach f g => exact .refl _

namespace Client

/-- After every history of a pool, a recency list is what requests have made of an empty one. -/
theorem recency_of_history {b : Blueprint} {built : AnyPool} (hbuild : b.build = .ok built)
    (hunloaded : b.Unloaded) (disk : Disk) (durable : Option Lsn)
    {allowed : List Entry → Client built.layout built.size → Step → Prop} {log : List Entry}
    {c : Client built.layout built.size}
    (h : History allowed (built.start disk durable) log c) (i : Fin built.layout.width) :
    (Recency.empty b.capacity).Becomes (c.system.pool.shard i).recency := by
  refine h.shards (P := fun _ sh => (Recency.empty b.capacity).Becomes sh.recency)
    (fun i w op hw => hw.trans (w.becomes_ask _ op)) (fun i => ?_) i
  show (Recency.empty b.capacity).Becomes (built.pool.shard i).recency
  rw [Blueprint.shard_of_build hbuild hunloaded i]
  exact .refl _

/-- On any pool with recency lists that were empty at the start, and after every history in which no
resident page is taken over: every shard, on the disk as it is, faults and all, fails gently. -/
theorem fails_gently {b : Blueprint} {built : AnyPool} (hbuild : b.build = .ok built)
    (hunloaded : b.Unloaded) (disk : Disk) (durable : Option Lsn) {log : List Entry}
    {c : Client built.layout built.size}
    (h : History NoTakeover (built.start disk durable) log c) (i : Fin built.layout.width) :
    (c.system.backed i).FailsGently (built.layout.stripe i) := by
  have hkept := kept_of_history (kept_of_build hbuild hunloaded disk durable) h
  exact Backed.failsGently (hkept.system i) (recency_of_history hbuild hunloaded disk durable h i)

/-- With two frames, and pages in both that nobody has pinned: while page `0` cannot be written and
nothing can be read, page `0` makes no room for a new page, and page `1`, the next to go then, has
gone when page `5` cannot be fetched. -/
theorem fails_gently_two_frames : ∃ log c,
    History NoTakeover
        ((AnyPool.fresh (.alone .whole) 2).start (.onMedium (.memory .empty)) none) log c ∧
      log.map Entry.answer = [.ok (.placed ⟨0, by decide⟩ 0), .ok (.placed ⟨1, by decide⟩ 1),
        .ok (.truth true), .ok (.truth true), .ok (.disk .nothing)] ∧
      let w := c.system.backed ⟨0, Nat.one_pos⟩
      let w' := (w.newPage .whole).state
      Backed.VictimStays w .writeFault w' ∧ w'.shard.recency.order = [1, 0] ∧
        Backed.LoadFails w' ⟨5, by decide⟩ .readFault (w'.fetch .whole ⟨5, by decide⟩).state := by
  have h : History FetchesCreated
      ((AnyPool.fresh (.alone .whole) 2).start (.onMedium (.memory .empty)) none) [] _ := .start
  have h := h.step ⟨none, .newPage "a"⟩ trivial
  have h := h.step ⟨none, .newPage "b"⟩ trivial
  have h := h.step ⟨none, .unpin ⟨0, by decide⟩ true⟩ trivial
  have h := h.step ⟨none, .unpin ⟨1, by decide⟩ false⟩ trivial
  have h := h.step ⟨none, .disk (.setFaults ⟨fun _ => true, fun p => p.val = 0⟩)⟩ trivial
  have hfailed := h.step ⟨none, .newPage "c"⟩ trivial
  have hbuild : Blueprint.build (.alone 2 1 0 none) = .ok (.fresh (.alone .whole) 2) := rfl
  have hspared {log : List Entry} {c : Client (.alone .whole) 2} (h : History FetchesCreated
      ((AnyPool.fresh (.alone .whole) 2).start (.onMedium (.memory .empty)) none) log c) :=
    (noTakeover_of_fetchesCreated (kept_of_build hbuild trivial _ none)
      (known_of_build hbuild trivial _ none) h).1
  have hstays := (fails_gently hbuild trivial _ none (hspared h) ⟨0, Nat.one_pos⟩).newPage_io
    .writeFault rfl
  have hloads := (fails_gently hbuild trivial _ none (hspared hfailed) ⟨0, Nat.one_pos⟩).fetch_io
    ⟨5, by decide⟩ .readFault rfl
  refine ⟨_, _, hspared h, rfl, hstays, rfl, hloads.resolve_left ?_⟩
  -- a read fault is none of writing back
  rintro ⟨-, -, refused⟩
  have refused : (Disk.write _ _ _).1 = .error .readFault := refused
  rw [Disk.write] at refused
  split at refused <;> exact absurd refused (by simp)

end Client

end PageCache
