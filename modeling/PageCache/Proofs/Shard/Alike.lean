import PageCache.Proofs.Shard.Simulation
import PageCache.Store.Disk

/-!
# What a flush leaves alone

A flush changes dirty flags and what the disk has. `Backed.Alike` says of two states of a shard over
a memory without faults that they are the same but for that: the bytes of frames, the dirty flags,
the contents of the disk with its marks, and how often it was written. No operation lets the
difference show in its answer, and none makes it larger (`Backed.fetch_alike`,
`Backed.newPage_alike` and so on). A flush is one that might as well not have been made
(`Backed.flush_idle`, `Backed.flushAll_idle`).
-/

namespace PageCache

variable {size : Nat} {α β : Type}

open Outcome (Mirrors)

/-! ## Frames and shards -/

/-- The same page with the same pins. -/
structure Frame.Alike (frame frame' : Frame) : Prop where
  holds : frame.holds = frame'.holds
  pins : frame.pins = frame'.pins

/-- Two frames that a page has just come to are alike, whatever its bytes. -/
theorem Frame.Alike.holding (p : PageId) (bytes bytes' : Page) :
    (Frame.holding p bytes).Alike (.holding p bytes') :=
  ⟨rfl, rfl⟩

/-- Frames that were given up are alike, for both are without a page and without pins. -/
theorem Frame.Alike.released (frame frame' : Frame) : frame.released.Alike frame'.released :=
  ⟨rfl, rfl⟩

namespace Shard

variable {sh sh' sh'' : Shard size}

/-- The shards have the same on record, but for what is dirty. -/
structure Alike (sh sh' : Shard size) : Prop where
  table : sh.table = sh'.table
  free : sh.free = sh'.free
  recency : sh.recency = sh'.recency
  nextId : sh.nextId = sh'.nextId
  frame : ∀ f, (sh.frame f).Alike (sh'.frame f)

namespace Alike

theorem refl (sh : Shard size) : sh.Alike sh :=
  ⟨rfl, rfl, rfl, rfl, fun _ => ⟨rfl, rfl⟩⟩

theorem symm (h : sh.Alike sh') : sh'.Alike sh :=
  ⟨h.table.symm, h.free.symm, h.recency.symm, h.nextId.symm,
    fun f => ⟨(h.frame f).holds.symm, (h.frame f).pins.symm⟩⟩

theorem trans (h : sh.Alike sh') (h' : sh'.Alike sh'') : sh.Alike sh'' :=
  ⟨h.table.trans h'.table, h.free.trans h'.free, h.recency.trans h'.recency,
    h.nextId.trans h'.nextId, fun f => ⟨(h.frame f).holds.trans (h'.frame f).holds,
      (h.frame f).pins.trans (h'.frame f).pins⟩⟩

variable {f : Fin size} {frame frame' : Frame} {p : PageId}

/-- Frames that are alike may be put in the same place. -/
theorem setFrame (h : sh.Alike sh') (f : Fin size) (hframe : frame.Alike frame') :
    (sh.setFrame f frame).Alike (sh'.setFrame f frame') where
  table := h.table
  free := h.free
  recency := h.recency
  nextId := h.nextId
  frame g := by
    rw [frame_setFrame, frame_setFrame]
    split
    · exact hframe
    · exact h.frame g

/-- The page in frame `f` gets other pins. -/
theorem repin (h : sh.Alike sh') (f : Fin size) (pins : Nat) (dirty dirty' : Bool) :
    (sh.setFrame f { sh.frame f with pins, dirty }).Alike
      (sh'.setFrame f { sh'.frame f with pins, dirty := dirty' }) :=
  h.setFrame f ⟨(h.frame f).holds, rfl⟩

/-- Bytes and dirty flag of one frame are of no account. -/
theorem reframe (h : sh.Alike sh') (hframe : (sh'.frame f).Alike frame) :
    sh.Alike (sh'.setFrame f frame) := by
  have hshard : sh'.Alike (sh'.setFrame f frame) :=
    { refl sh' with
      frame := fun g => by
        rw [frame_setFrame]
        split
        · next hfg => exact hfg ▸ hframe
        · exact ⟨rfl, rfl⟩ }
  exact h.trans hshard

theorem withTable (h : sh.Alike sh') (table : Std.ExtTreeMap PageId (Fin size)) :
    ({ sh with table } : Shard size).Alike { sh' with table } :=
  ⟨rfl, h.free, h.recency, h.nextId, h.frame⟩

theorem withFree (h : sh.Alike sh') (free : List (Fin size)) :
    ({ sh with free } : Shard size).Alike { sh' with free } :=
  ⟨h.table, rfl, h.recency, h.nextId, h.frame⟩

theorem withRecency (h : sh.Alike sh') (recency : Recency) :
    ({ sh with recency } : Shard size).Alike { sh' with recency } :=
  ⟨h.table, h.free, rfl, h.nextId, h.frame⟩

theorem withNext (h : sh.Alike sh') (nextId : Option PageId) :
    ({ sh with nextId } : Shard size).Alike { sh' with nextId } :=
  ⟨h.table, h.free, h.recency, rfl, h.frame⟩

/-- The same page may come to the same frame, with whatever bytes it has in the one and in the
other. -/
theorem install (h : sh.Alike sh') (p : PageId) (f : Fin size) (bytes bytes' : Page) :
    (sh.install p f bytes).Alike (sh'.install p f bytes') where
  table := congrArg (fun table => table.insert p f) h.table
  free := h.free
  recency := h.recency
  nextId := h.nextId
  frame := (h.setFrame f (.holding p bytes bytes')).frame

/-- A page may leave the frame it lies in. -/
theorem unmap (h : sh.Alike sh') (p : PageId) (f : Fin size) :
    (sh.unmap p f).Alike (sh'.unmap p f) where
  table := congrArg (fun table => table.erase p) h.table
  free := h.free
  recency := h.recency
  nextId := h.nextId
  frame := (h.setFrame f (.released _ _)).frame

/-- The recency lists are the same, so they go on alike when a frame is tracked. -/
theorem track (h : sh.Alike sh') (f : Fin size) : (sh.track f).1.Alike (sh'.track f).1 := by
  unfold Shard.track
  rw [h.recency]
  exact h.withRecency _

/-- They go on alike when a frame is tracked no longer. -/
theorem untrack (h : sh.Alike sh') (f : Fin size) : (sh.untrack f).1.Alike (sh'.untrack f).1 := by
  unfold Shard.untrack
  rw [h.recency]
  split
  · exact h.withRecency _
  · exact h

/-- Both tell the same number of pins of a page. -/
theorem pinCount? (h : sh.Alike sh') (p : PageId) : sh.pinCount? p = sh'.pinCount? p := by
  unfold Shard.pinCount?
  rw [h.table]
  exact congrArg (Option.map · _) (funext fun f => (h.frame f).pins)

end Alike

/-- The shards answer every question alike but the one after dirty flags. -/
structure TellsAlike (sh sh' : Shard size) : Prop where
  residents : sh.residents = sh'.residents
  freeCount : sh.freeCount = sh'.freeCount
  evictableCount : sh.evictableCount = sh'.evictableCount
  pinCount? : ∀ p, sh.pinCount? p = sh'.pinCount? p

/-- What a client may ask about a shard depends on what is the same. -/
theorem Alike.tells (h : sh.Alike sh') : sh.TellsAlike sh' where
  residents := congrArg Std.ExtTreeMap.keys h.table
  freeCount := congrArg List.length h.free
  evictableCount := congrArg Recency.size h.recency
  pinCount? := h.pinCount?

end Shard

/-! ## Disks -/

namespace Disk

/-- Two memories without faults that were read equally often, and told equally often that a page may
be reclaimed. -/
inductive Alike : Disk → Disk → Prop
  | memory {m m' : MemoryStore} (reads : m.reads = m'.reads)
      (deallocations : m.deallocations = m'.deallocations) (nextId : m.nextId = m'.nextId) :
      Alike ⟨.memory m, .none⟩ ⟨.memory m', .none⟩

namespace Alike

variable {d d' d'' : Disk}

theorem refl (m : MemoryStore) : (onMedium (.memory m)).Alike (onMedium (.memory m)) :=
  .memory rfl rfl rfl

/-- Disks may be named in either order. -/
theorem symm (h : d.Alike d') : d'.Alike d := by
  cases h with
  | memory hreads hdeallocations hnext =>
    exact .memory hreads.symm hdeallocations.symm hnext.symm

/-- A disk that is like one that is like a third is like the third. -/
theorem trans (h : d.Alike d') (h' : d'.Alike d'') : d.Alike d'' := by
  cases h with
  | memory hreads hdeallocations hnext =>
    cases h' with
    | memory hreads' hdeallocations' hnext' =>
      exact .memory (hreads.trans hreads') (hdeallocations.trans hdeallocations')
        (hnext.trans hnext')

/-- A page that is read comes, whatever it shows. -/
theorem read (h : d.Alike d') (p : PageId) (buffer buffer' : Page) :
    (PageStore.read d p buffer).result = .ok () ∧ (PageStore.read d' p buffer').result = .ok () ∧
      (PageStore.read d p buffer).store.Alike (PageStore.read d' p buffer').store := by
  cases h with
  | memory hreads hdeallocations hnext =>
    exact ⟨rfl, rfl, .memory (congrArg (· + 1) hreads) hdeallocations hnext⟩

/-- To write a page is nothing that would matter. -/
theorem write (h : d.Alike d') (p : PageId) (page : Page) :
    ∃ e : Disk, PageStore.write d p page = (.ok (), e) ∧ e.Alike d' := by
  cases h with
  | memory hreads hdeallocations hnext =>
    exact ⟨_, rfl, .memory hreads hdeallocations hnext⟩

/-- A page may be told to both to be reclaimable. Whether it was so before does not matter. -/
theorem deallocate (h : d.Alike d') (p : PageId) :
    (PageStore.deallocate d p).1.Alike (PageStore.deallocate d' p).1 := by
  cases h with
  | memory hreads hdeallocations hnext =>
    exact .memory hreads (congrArg (· + 1) hdeallocations) hnext

end Alike

end Disk

/-! ## Operations -/

namespace Backed

variable {w w' w'' : Backed size Disk} {f : Fin size} {p : PageId}

/-- The shard is the same but for what is dirty, over disks that are alike. -/
structure Alike (w w' : Backed size Disk) : Prop where
  shard : w.shard.Alike w'.shard
  disk : w.disk.Alike w'.disk

namespace Alike

/-- Two states of a shard may be named in either order. -/
theorem symm (h : w.Alike w') : w'.Alike w :=
  ⟨h.shard.symm, h.disk.symm⟩

/-- Two states that are like a third are alike. -/
theorem trans (h : w.Alike w') (h' : w'.Alike w'') : w.Alike w'' :=
  ⟨h.shard.trans h'.shard, h.disk.trans h'.disk⟩

/-- Whatever is like another state is like itself. -/
theorem right (h : w.Alike w') : w'.Alike w' :=
  h.symm.trans h

end Alike

/-- Over a memory without faults every page makes room. -/
theorem evict_unmaps {d : Disk} (hdisk : w.disk.Alike d)
    (hholds : (w.shard.frame f).holds = some p) :
    (w.evict f).result = .ok f ∧ (w.evict f).state.shard = w.shard.unmap p f ∧
      (w.evict f).state.disk.Alike d := by
  unfold evict
  simp only [hholds]
  cases (w.shard.frame f).dirty with
  | false => exact ⟨rfl, rfl, hdisk⟩
  | true =>
    -- the page is written back first, and that does not count
    obtain ⟨e, hwrite, he⟩ := hdisk.write p (w.shard.frame f).bytes
    unfold writeBack
    simp only [hwrite, if_true]
    exact ⟨rfl, rfl, he⟩

/-- Frames are given up alike. It may be that one of two pages has to be written back for that, and
the other is clean. -/
theorem evict_alike (h : w.Alike w') (f : Fin size) : Mirrors Alike (w.evict f) (w'.evict f) := by
  cases hholds : (w.shard.frame f).holds with
  | none =>
    -- there is no page in frame `f` of either
    have hholds' := (h.shard.frame f).holds.symm.trans hholds
    unfold evict
    simp only [hholds, hholds']
    exact ⟨rfl, h.shard.setFrame f ⟨rfl, rfl⟩, h.disk⟩
  | some p =>
    -- dirty or not, the frame is empty afterwards
    have hholds' := (h.shard.frame f).holds.symm.trans hholds
    obtain ⟨hresult, hshard, hdisk⟩ := evict_unmaps h.disk hholds
    obtain ⟨hresult', hshard', hdisk'⟩ := evict_unmaps hdisk.symm hholds'
    refine ⟨hresult.trans hresult'.symm, ?_, hdisk'.symm⟩
    rw [hshard, hshard']
    exact h.shard.unmap p f

/-- The same frame is found, since free list and recency list are the same. -/
theorem acquire_alike (h : w.Alike w') : Mirrors Alike w.acquire w'.acquire := by
  unfold acquire
  rw [← h.shard.free, ← h.shard.recency]
  cases w.shard.free with
  | cons f free => exact ⟨rfl, h.shard.withFree free, h.disk⟩
  | nil =>
    cases w.shard.recency.victim with
    | none => exact ⟨rfl, h⟩
    | some found =>
      -- both lists give up the same frame
      obtain ⟨k, recency⟩ := found
      have hleft : Alike { w with shard := { w.shard with recency } }
          { w' with shard := { w'.shard with recency } } :=
        ⟨h.shard.withRecency recency, h.disk⟩
      dsimp only
      split
      · next hk =>
        have hevict := evict_alike hleft ⟨k, hk⟩
        exact ⟨hevict.result, hevict.state⟩
      · exact ⟨rfl, hleft⟩

/-- A page that is there gets its pin in both, or has all it can have in both. -/
theorem pinAgain_alike (h : w.Alike w') (f : Fin size) :
    Mirrors Alike (w.pinAgain f) (w'.pinAgain f) := by
  unfold pinAgain
  dsimp only
  rw [← (h.shard.frame f).pins]
  split
  · exact ⟨rfl, (h.shard.repin f _ _ _).untrack f, h.disk⟩
  · exact ⟨rfl, h⟩

/-- A page is loaded in both, with bytes that may differ. -/
theorem load_alike (h : w.Alike w') (p : PageId) (f : Fin size) :
    Mirrors Alike (w.load p f) (w'.load p f) := by
  obtain ⟨hresult, hresult', hdisk⟩ :=
    h.disk.read p (w.shard.frame f).bytes (w'.shard.frame f).bytes
  unfold load
  simp only [hresult, hresult']
  exact ⟨rfl, h.shard.install p f _ _, hdisk⟩

/-- Fetches answer alike, and leave shards that are alike. -/
theorem fetch_alike (h : w.Alike w') (s : Stripe) (p : PageId) :
    Mirrors Alike (w.fetch s p) (w'.fetch s p) := by
  unfold fetch
  rw [← h.shard.table]
  split
  · cases w.shard.table[p]? with
    | some f => exact pinAgain_alike h f
    | none => exact (acquire_alike h).andThen fun f _ _ h => load_alike h p f
  · exact ⟨rfl, h⟩

/-- The same page of zeros is made, or refused, in both. -/
theorem create_alike (h : w.Alike w') (s : Stripe) (p : PageId) (f : Fin size) :
    Mirrors Alike (w.create s p f) (w'.create s p f) := by
  rw [create, create]
  split
  · exact ⟨rfl, (h.shard.install p f _ _).withNext _, h.disk⟩
  · exact ⟨rfl, h.shard.withNext _, h.disk⟩

/-- Creations answer alike and leave shards that are alike. -/
theorem newPage_alike (h : w.Alike w') (s : Stripe) :
    Mirrors Alike (w.newPage s) (w'.newPage s) := by
  unfold newPage
  rw [← h.shard.nextId]
  cases w.shard.nextId with
  | none => exact ⟨rfl, h⟩
  | some p =>
    exact (acquire_alike h).andThen fun f _ _ h => create_alike h s p f

/-- Unpins answer alike: the pins are the same, and it is nobody's concern what is dirty then. -/
theorem unpin_alike (h : w.Alike w') (s : Stripe) (p : PageId) (dirty : Bool) :
    Mirrors Alike (w.unpin s p dirty) (w'.unpin s p dirty) := by
  unfold unpin
  rw [← h.shard.table]
  split
  · cases w.shard.table[p]? with
    | none => exact ⟨rfl, h⟩
    | some f =>
      dsimp only
      rw [← (h.shard.frame f).pins]
      split
      · exact ⟨rfl, h⟩
      · split
        · exact ⟨rfl, (h.shard.repin f _ _ _).track f, h.disk⟩
        · exact ⟨rfl, h.shard.repin f _ _ _, h.disk⟩
  · exact ⟨rfl, h⟩

/-- A page goes from both, or stays in both for being pinned. -/
theorem discard_alike (h : w.Alike w') (p : PageId) :
    Mirrors Alike (w.discard p) (w'.discard p) := by
  unfold discard
  rw [← h.shard.table]
  cases w.shard.table[p]? with
  | none => exact ⟨rfl, h⟩
  | some f =>
    dsimp only
    rw [← (h.shard.frame f).pins]
    split
    · exact ⟨rfl, h⟩
    · -- nobody has the page pinned, and its frame becomes free
      have hfreed := (h.shard.withTable (w.shard.table.erase p)).untrack f
      have hblank : (Shard.setFrame _ f .blank).Alike (Shard.setFrame _ f .blank) :=
        hfreed.setFrame f ⟨rfl, rfl⟩
      refine ⟨rfl, ?_, h.disk⟩
      dsimp only
      rw [hblank.free]
      exact hblank.withFree _

/-- Deletes answer alike, and have told both disks. -/
theorem delete_alike (h : w.Alike w') (s : Stripe) (p : PageId) :
    Mirrors Alike (w.delete s p) (w'.delete s p) := by
  unfold delete
  split
  · -- the disks are told before it is seen whether the page is pinned
    have htold : Alike { w with disk := (PageStore.deallocate w.disk p).1 }
        { w' with disk := (PageStore.deallocate w'.disk p).1 } :=
      ⟨h.shard, h.disk.deallocate p⟩
    exact ⟨(discard_alike htold p).result, (discard_alike htold p).state⟩
  · exact ⟨rfl, h⟩

/-! ## Flushes

A flush agrees with an outcome that gives the answer and does nothing. -/

/-- One look at a page tells whether it is resident, and does nothing that would count. -/
theorem tryFlush_idle (h : w.Alike w') (p : PageId) :
    Mirrors Alike (w.tryFlush noWriter p) (.ok (.settled w'.shard.table[p]?.isSome) w') := by
  unfold tryFlush
  rw [← h.shard.table]
  cases w.shard.table[p]? with
  | none => exact ⟨rfl, h⟩
  | some f =>
    cases hdirty : (w.shard.frame f).dirty with
    | false =>
      simp only [hdirty, Bool.false_eq_true, if_false]
      -- there is nothing to save
      exact ⟨rfl, h⟩
    | true =>
      -- the page is written and becomes clean, and neither counts
      obtain ⟨e, hwrite, he⟩ := h.disk.write p (w.shard.frame f).bytes
      have hclean : w.shard.Alike (w.shard.setFrame f { w.shard.frame f with dirty := false }) :=
        (Shard.Alike.refl w.shard).reframe ⟨rfl, rfl⟩
      unfold writeBack
      simp only [hdirty, noWriter, Bool.false_eq_true, if_true, if_false, hwrite]
      exact ⟨rfl, hclean.symm.trans h.shard, he⟩

/-- A flush of a page does nothing that would count but tell whether the page is there. -/
theorem flush_idle (h : w.Alike w') (s : Stripe) (p : PageId) :
    Mirrors Alike (w.flush s p)
      ⟨if s.Owns p then .ok w'.shard.table[p]?.isSome else .error (s.foreign p), w', []⟩ := by
  unfold flush
  split
  · exact (tryFlush_idle h p).map Look.resident
  · exact ⟨rfl, h⟩

/-- However many pages are looked at, nothing has happened that would count. -/
theorem sweep_idle (pages : List PageId) (h : w.Alike w') :
    Mirrors Alike (sweep noWriter pages w) (.ok [] w') := by
  induction pages generalizing w with
  | nil => exact ⟨rfl, h⟩
  | cons p pages ih =>
    have hlook := tryFlush_idle h p
    rw [sweep, Outcome.andThen_of_ok hlook.result]
    exact ⟨(ih hlook.state).result, (ih hlook.state).state⟩

/-- A flush of all pages succeeds, and does nothing that would count. -/
theorem flushAll_idle (h : w.Alike w') (visit : Visit) :
    Mirrors Alike (w.flushAll visit) (.ok () w') :=
  (sweep_idle _ h).map fun _ => ()

/-- Two states that are alike stay so when a page is flushed in both. -/
theorem flush_alike (h : w.Alike w') (s : Stripe) (p : PageId) :
    Mirrors Alike (w.flush s p) (w'.flush s p) :=
  (flush_idle h s p).trans .trans ((flush_idle h.right s p).symm .symm)

/-- Two states that are alike stay so when all pages are flushed in both. -/
theorem flushAll_alike (h : w.Alike w') (visit : Visit) :
    Mirrors Alike (w.flushAll visit) (w'.flushAll visit) :=
  (flushAll_idle h visit).trans .trans ((flushAll_idle h.right visit).symm .symm)

end Backed

end PageCache
