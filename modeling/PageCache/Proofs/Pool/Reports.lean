import PageCache.Pool.Basic
import PageCache.Store.Request

/-!
# What a pool reports

That a guard was found without its pin is for the holder of the guard to say. A pool takes part in
no such report, and neither does the disk (`Outcome.FindsPinned`).
-/

namespace PageCache

/-- No event says that a guard was found already unpinned. -/
def Outcome.FindsPinned {σ α : Type} (o : Outcome σ α) : Prop :=
  ∀ access p, Event.guardUnpinned access p ∉ o.events

namespace Outcome.FindsPinned

variable {σ τ α β : Type} {o : Outcome σ α}

/-- What reports nothing reports no such guard. -/
theorem silent (h : o.events = []) : o.FindsPinned :=
  fun _ _ hmem => absurd (h ▸ hmem) List.not_mem_nil

/-- Events that are reported first may be anything but that. -/
theorem after {events : List Event} (h : o.FindsPinned)
    (hevents : ∀ access p, Event.guardUnpinned access p ∉ events) : (o.after events).FindsPinned :=
  fun access p hmem => (List.mem_append.mp hmem).elim (hevents access p) (h access p)

/-- A chain finds guards pinned if its first part does, and its second part does where it is
reached. -/
theorem andThen {next : α → σ → Outcome σ β} (h : o.FindsPinned)
    (hnext : ∀ a, o.result = .ok a → (next a o.state).FindsPinned) :
    (o.andThen next).FindsPinned := by
  cases hresult : o.result with
  | error e =>
    -- the second part is not reached
    rw [Outcome.andThen_of_error hresult]
    exact h
  | ok a =>
    rw [Outcome.andThen_of_ok hresult]
    exact (hnext a hresult).after h

/-- The answer may be put in other words, for the events stay the same. -/
theorem map (h : o.FindsPinned) (f : α → β) : (o.map f).FindsPinned :=
  h

end Outcome.FindsPinned

open Outcome (FindsPinned)

/-! ## The disk -/

namespace Medium

/-- A medium that is read reports at most that the page lies past the end of the file. -/
theorem findsPinned_read (m : Medium) (p : PageId) (buffer : Page) (access : Access) (q : PageId) :
    Event.guardUnpinned access q ∉ (m.read p buffer).events := by
  cases m with
  | memory m => exact List.not_mem_nil
  | file f =>
    show _ ∉ (f.read p buffer).events
    unfold FileStore.read
    split
    · simp
    · split <;> exact List.not_mem_nil

/-- To have a page marked is reported as just that. -/
theorem findsPinned_deallocate (m : Medium) (p : PageId) (access : Access) (q : PageId) :
    Event.guardUnpinned access q ∉ (m.deallocate p).2 := by
  cases m <;> simp [deallocate, PageStore.deallocate]

/-- A buffer of any length is read like a page, or refused in silence. -/
theorem findsPinned_readBuffer (m : Medium) (p : PageId) (buffer : ByteArray) :
    (m.readBuffer p buffer).FindsPinned := by
  rw [readBuffer]
  split
  · exact .silent rfl
  next page _ =>
  refine FindsPinned.after ?_ (m.findsPinned_read p page)
  split <;> exact .silent rfl

end Medium

namespace Disk

/-- The faults of a disk add no report of their own. -/
theorem findsPinned_read (d : Disk) (p : PageId) (buffer : Page) (access : Access) (q : PageId) :
    Event.guardUnpinned access q ∉ (PageStore.read d p buffer).events := by
  show _ ∉ (d.read p buffer).events
  rw [Disk.read]
  split
  · exact List.not_mem_nil
  · exact d.medium.findsPinned_read p buffer access q

/-- Nothing that a client may ask of the disk past the pool reports on guards. -/
theorem findsPinned_perform (d : Disk) (op : DiskOp) : (d.perform op).FindsPinned := by
  cases op with
  | read p length => exact d.medium.findsPinned_readBuffer p _
  | write p length edits =>
    show (d.medium.writeBuffer p _).FindsPinned
    rw [Medium.writeBuffer]
    split <;> exact .silent rfl
  | deallocate p => exact FindsPinned.after (.silent rfl) (d.medium.findsPinned_deallocate p)
  | _ => exact .silent rfl

end Disk

/-! ## Shards -/

namespace Shard

variable {size : Nat}

/-- A shard that tracks a frame reports which one its list has forgotten for that, if any. -/
theorem findsPinned_track (sh : Shard size) (f : Fin size) (access : Access) (p : PageId) :
    Event.guardUnpinned access p ∉ (sh.track f).2 := by
  simp [track]

/-- A shard that ceases to track a frame reports that it was tracked. -/
theorem findsPinned_untrack (sh : Shard size) (f : Fin size) (access : Access) (p : PageId) :
    Event.guardUnpinned access p ∉ (sh.untrack f).2 := by
  rw [untrack]
  split <;> simp

end Shard

namespace Backed

variable {size : Nat} (w : Backed size Disk)

/-- To write a page back is silent, whether or not it succeeds. -/
theorem findsPinned_writeBack (p : PageId) (f : Fin size) : (w.writeBack p f).FindsPinned := by
  rw [writeBack]
  split <;> exact .silent rfl

/-- What is reported of an eviction is how it came about: the victim was clean, or was written, or
could not be and is tracked again. -/
theorem findsPinned_evict (f : Fin size) : (w.evict f).FindsPinned := by
  have hwrite := w.findsPinned_writeBack
  rw [evict]
  simp only
  split
  · exact .silent rfl
  next p _ =>
  split
  · split
    · -- the page was written, and its frame is given up
      refine FindsPinned.after (.silent rfl) fun access q hmem => ?_
      simp at hmem
      exact hwrite p f access q hmem
    · -- it could not be written, and the frame is tracked again
      intro access q hmem
      rcases List.mem_append.mp hmem with hmem | hmem
      · exact hwrite p f access q hmem
      · exact Shard.findsPinned_track _ f access q hmem
  · exact FindsPinned.after (.silent rfl) (by simp)

/-- A search for a frame reports the victim and its eviction. -/
theorem findsPinned_acquire : w.acquire.FindsPinned := by
  rw [acquire]
  split
  · exact .silent rfl
  split
  · exact .silent rfl
  refine FindsPinned.after ?_ (by simp)
  split
  · exact findsPinned_evict _ _
  · exact .silent rfl

/-- The page that is read is reported as loaded, after what the read had to report. -/
theorem findsPinned_load (p : PageId) (f : Fin size) : (w.load p f).FindsPinned := by
  have hread := Disk.findsPinned_read w.disk p (w.shard.frame f).bytes
  rw [load]
  simp only
  split
  · intro access q hmem
    rcases List.mem_append.mp hmem with hmem | hmem
    · exact hread access q hmem
    · simp at hmem
  · exact hread

/-- A fetch pins the page where it is or brings it in, and reports neither on guards. -/
theorem findsPinned_fetch (s : Stripe) (p : PageId) : (w.fetch s p).FindsPinned := by
  rw [fetch]
  split
  · split
    · rw [pinAgain]
      simp only
      split
      · exact Shard.findsPinned_untrack _ _
      · exact .silent rfl
    · exact w.findsPinned_acquire.andThen fun f _ => findsPinned_load _ p f
  · exact .silent rfl

/-- A new page is reported as such, and one of another stripe not at all. -/
theorem findsPinned_create (s : Stripe) (p : PageId) (f : Fin size) :
    (w.create s p f).FindsPinned := by
  rw [create]
  split
  · exact FindsPinned.after (.silent rfl) (by simp)
  · exact .silent rfl

/-- So a creation reports on the search for a frame and on the page. -/
theorem findsPinned_newPage (s : Stripe) : (w.newPage s).FindsPinned := by
  rw [newPage]
  split
  · exact .silent rfl
  · exact w.findsPinned_acquire.andThen fun f _ => findsPinned_create _ s _ f

/-- An unpin tells of a page that was unpinned too often, but not of whoever held it. -/
theorem findsPinned_unpin (s : Stripe) (p : PageId) (dirty : Bool) :
    (w.unpin s p dirty).FindsPinned := by
  rw [unpin]
  split
  · split
    · exact .silent rfl
    simp only
    split
    · exact FindsPinned.after (.silent rfl) (by simp)
    split
    · exact Shard.findsPinned_track _ _
    · exact .silent rfl
  · exact .silent rfl

/-- A page that is dropped from the shard is reported if it was refused for being pinned. -/
theorem findsPinned_discard (p : PageId) : (w.discard p).FindsPinned := by
  rw [discard]
  split
  · exact .silent rfl
  split
  · exact FindsPinned.after (.silent rfl) (by simp)
  · exact Shard.findsPinned_untrack _ _

/-- A delete adds what the disk has to say of the mark. -/
theorem findsPinned_delete (s : Stripe) (p : PageId) : (w.delete s p).FindsPinned := by
  rw [delete]
  split
  · exact (findsPinned_discard _ p).after (w.disk.medium.findsPinned_deallocate p)
  · exact .silent rfl

/-- A look of a flush is silent. -/
theorem findsPinned_tryFlush (latched : Fin size → Bool) (p : PageId) :
    (w.tryFlush latched p).FindsPinned := by
  rw [tryFlush]
  split
  · exact .silent rfl
  split
  · split
    · exact .silent rfl
    · exact (w.findsPinned_writeBack p _).andThen fun _ _ => .silent rfl
  · exact .silent rfl

/-- A flush of one page finds no guard without its pin. -/
theorem findsPinned_flush (s : Stripe) (p : PageId) : (w.flush s p).FindsPinned := by
  rw [flush]
  split
  · exact w.findsPinned_tryFlush noWriter p
  · exact .silent rfl

variable {w} in
/-- A flush of many pages finds no guard without its pin, however many are looked at. -/
theorem findsPinned_sweep (latched : Fin size → Bool) (pages : List PageId) :
    (sweep latched pages w).FindsPinned := by
  induction pages generalizing w with
  | nil => exact .silent rfl
  | cons p pages ih =>
    refine (w.findsPinned_tryFlush latched p).andThen fun look _ => ?_
    cases look with
    | settled => exact ih
    | busy f => exact ih.map _

end Backed

/-! ## Pools -/

namespace System

variable {l : Layout} {size : Nat} (w : System l size Disk)

/-- A pool that asks one shard for a page reports what that shard does. -/
theorem findsPinned_newPageIn (i : Fin l.width) : (w.newPageIn i).FindsPinned :=
  (w.backed i).findsPinned_newPage (l.stripe i)

variable {w} in
/-- A pool that asks several shards for a page adds which of them made it. -/
theorem findsPinned_newPageAmong (shards : List (Fin l.width)) :
    (newPageAmong shards w).FindsPinned := by
  induction shards generalizing w with
  | nil => exact .silent rfl
  | cons i rest ih =>
    have hin := w.findsPinned_newPageIn i
    rw [newPageAmong]
    split
    · intro access p hmem
      rcases List.mem_append.mp hmem with hmem | hmem
      · exact hin access p hmem
      · simp at hmem
    · -- the shard was full, and the search goes on
      exact ih.after hin
    · exact hin

/-- A new page of a pool is one or the other. -/
theorem findsPinned_newPage : w.newPage.FindsPinned := by
  rw [newPage]
  split
  · exact findsPinned_newPageAmong _
  · exact w.findsPinned_newPageIn _

variable {w} in
/-- A flush of all shards in turn is silent, for that of each is. -/
theorem findsPinned_flushShards (visit : Visit) (shards : List (Fin l.width)) :
    (flushShards visit shards w).FindsPinned := by
  induction shards generalizing w with
  | nil => exact .silent rfl
  | cons i rest ih =>
    exact FindsPinned.andThen ((w.backed i).findsPinned_sweep Backed.noWriter _) fun _ _ => ih

end System

end PageCache
