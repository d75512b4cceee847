import PageCache.Proofs.Client.Kept
import PageCache.Proofs.Shard.Full

/-!
# Full pools in the course of a history

No frame gets lost in a history in which no resident page is taken over, whatever the operations and
the faults of the disk. So a shard that says it is full is telling the truth, and every shard says
so as soon as it is true (`Client.full_iff_pinned`).
-/

namespace PageCache.Client

/-- On any pool whose recency lists were empty at the start and have room for every frame, which is
what a pool is given unless it is given something else, and after every history in which no resident
page is taken over: each shard is full when every frame has a pinned page in it, and then only. -/
theorem full_iff_pinned {b : Blueprint} {built : AnyPool} (hbuild : b.build = .ok built)
    (hunloaded : b.Unloaded) (hroomy : b.Roomy) (disk : Disk) (durable : Option Lsn)
    {log : List Entry} {c : Client built.layout built.size}
    (h : History NoTakeover (built.start disk durable) log c) (i : Fin built.layout.width) :
    (c.system.backed i).FullWhenPinned (built.layout.stripe i) := by
  have hkept := kept_of_history (kept_of_build hbuild hunloaded disk durable) h
  exact Backed.fullWhenPinned (hkept.system i) (Blueprint.size_le_capacity hbuild hunloaded hroomy)

/-- With one frame. A new page is changed and unpinned, and cannot be written back for page `5`;
then it can, but page `5` cannot be read. The frame has not been lost: it is full of page `0` once
that is fetched again, and after it was unpinned there is room. -/
theorem full_iff_pinned_one_frame : ∃ log c,
    History NoTakeover
        ((AnyPool.fresh (.alone .whole) 1).start (.onMedium (.memory .empty)) none) log c ∧
      log.map Entry.answer = [.ok (.placed ⟨0, by decide⟩ 0), .ok (.truth true),
        .ok (.disk .nothing), .error (.storage (.io .writeFault)), .ok (.disk .nothing),
        .error (.storage (.io .readFault)), .ok (.disk .nothing), .ok (.placed ⟨0, by decide⟩ 0)] ∧
      let w := c.system.backed ⟨0, Nat.one_pos⟩
      let unpinned := (c.take ⟨none, .unpin ⟨0, by decide⟩ false⟩).state
      let w' := unpinned.system.backed ⟨0, Nat.one_pos⟩
      w.shard.AllPinned ∧ (w.newPage .whole).result = .error (.storage .poolFull) ∧
        w'.shard.pinnedPages = [] ∧
        (w'.fetch .whole ⟨5, by decide⟩).result ≠ .error (.storage .poolFull) := by
  have h : History FetchesCreated
      ((AnyPool.fresh (.alone .whole) 1).start (.onMedium (.memory .empty)) none) [] _ := .start
  have h := h.step ⟨none, .newPage "a"⟩ trivial
  have h := h.step ⟨none, .unpin ⟨0, by decide⟩ true⟩ trivial
  have hbuild : Blueprint.build (.alone 1 1 0 none) = .ok (.fresh (.alone .whole) 1) := rfl
  have h := (noTakeover_of_fetchesCreated (kept_of_build hbuild trivial _ none)
    (known_of_build hbuild trivial _ none) h).1
  -- no step from here on is to create a page
  have hspared {log : List Entry} {c : Client (.alone .whole) 1} {step : Step}
      (hnone : c.creation? step = none) : NoTakeover log c step :=
    fun _ _ ho => absurd (hnone.symm.trans ho) (by simp)
  have h := h.step ⟨none, .disk (.setFaults ⟨fun _ => false, fun _ => true⟩)⟩ (hspared rfl)
  have h := h.step ⟨none, .fetch ⟨5, by decide⟩ "b"⟩ (hspared rfl)
  have h := h.step ⟨none, .disk (.setFaults ⟨fun _ => true, fun _ => false⟩)⟩ (hspared rfl)
  have h := h.step ⟨none, .fetch ⟨5, by decide⟩ "b"⟩ (hspared rfl)
  have h := h.step ⟨none, .disk (.setFaults ⟨fun _ => false, fun _ => false⟩)⟩ (hspared rfl)
  have h := h.step ⟨none, .fetch ⟨0, by decide⟩ "a"⟩ (hspared rfl)
  have hunpinned := h.step ⟨none, .unpin ⟨0, by decide⟩ false⟩ (hspared rfl)
  have hfull := full_iff_pinned hbuild trivial trivial _ none h ⟨0, Nat.one_pos⟩
  have hroom := full_iff_pinned hbuild trivial trivial _ none hunpinned ⟨0, Nat.one_pos⟩
  have hall := (hfull.fetch_full_iff ⟨5, by decide⟩ (Stripe.owns_whole _) rfl).mp rfl
  exact ⟨_, _, h, rfl, hall, rfl, rfl, hroom.fetch_not_full Nat.one_pos ⟨5, by decide⟩⟩

end PageCache.Client
