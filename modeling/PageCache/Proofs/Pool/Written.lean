import PageCache.Pool.Basic
import PageCache.Proofs.Client.Numbering
import PageCache.Proofs.Shard.Cases
import PageCache.Proofs.Store.Pagewise

/-!
# Which pages a pool writes

A pool writes a page to the disk only while the page is resident. So if the resident pages are all
in `S`, the disk has had requests that write pages of `S` at most (`ServesOnly`). What every such
request keeps is kept by all of them (`ServesOnly.keeps`); for a page file this is a bound on its
length (`Disk.extent_of_servesOnly`, `FileStore.size_eq_of_extent`).
-/

namespace PageCache

/-! ## Requests that write certain pages only -/

/-- `e` is what became of `d` by requests that write no pages but those of `S`. -/
inductive ServesOnly {δ : Type} [PageStore δ] (S : PageId → Prop) (d : δ) : δ → Prop
  | refl : ServesOnly S d d
  | read {e : δ} (h : ServesOnly S d e) (p : PageId) (buffer : Page) :
      ServesOnly S d (PageStore.read e p buffer).store
  | write {e : δ} (h : ServesOnly S d e) {p : PageId} (hp : S p) (page : Page) :
      ServesOnly S d (PageStore.write e p page).2

namespace ServesOnly

variable {δ : Type} [PageStore δ] {S S' : PageId → Prop} {d e f : δ} {p : PageId} {page : Page}

/-- Requests may go on where others ended. -/
theorem trans (h : ServesOnly S d e) (h' : ServesOnly S e f) : ServesOnly S d f := by
  induction h' with
  | refl => exact h
  | read _ p buffer ih => exact ih.read p buffer
  | write _ hp page ih => exact ih.write hp page

/-- Pages of `S` are pages of any larger set. -/
theorem mono (h : ServesOnly S d e) (hS : ∀ p, S p → S' p) : ServesOnly S' d e := by
  induction h with
  | refl => exact .refl
  | read _ p buffer ih => exact ih.read p buffer
  | write _ hp page ih => exact ih.write (hS _ hp) page

/-- One write of a page of `S` is such a request, however it ends. -/
theorem of_write {result : Except IoError Unit} (hp : S p)
    (h : PageStore.write d p page = (result, e)) : ServesOnly S d e := by
  have hwrite := (ServesOnly.refl : ServesOnly S d d).write hp page
  rwa [h] at hwrite

/-- Requests that write certain pages only are requests. -/
theorem serves (h : ServesOnly S d e) : Serves d e := by
  induction h with
  | refl => exact .refl
  | read _ p buffer ih => exact ih.read p buffer
  | write _ _ page ih => exact ih.write _ page

/-- What every request keeps is kept. -/
theorem keeps {P : δ → Prop} (h : ServesOnly S d e)
    (hread : ∀ d p buffer, P d → P (PageStore.read d p buffer).store)
    (hwrite : ∀ d p page, S p → P d → P (PageStore.write d p page).2) (hd : P d) : P e := by
  induction h with
  | refl => exact hd
  | read _ p buffer ih => exact hread _ p buffer ih
  | write _ hp page ih => exact hwrite _ _ page hp ih

end ServesOnly

/-! ## Shards -/

variable {size : Nat} {δ : Type} [PageStore δ] {S : PageId → Prop}

namespace Backed

variable {w w' : Backed size δ} {s : Stripe} {capacity : Nat}

/-- To find a frame a resident page may have to be written. -/
theorem servesOnly_of_acquisition {r : Except Failure (Fin size)} (ha : Acquisition w r w')
    (hresident : ∀ (p : PageId) f, w.shard.table[p]? = some f → S p) :
    ServesOnly S w.disk w'.disk := by
  cases ha with
  | free | full | clean => exact .refl
  | written _ _ hp _ _ hwrite | unwritten _ _ hp _ _ hwrite =>
    exact .of_write (hresident _ _ hp) hwrite

/-- Loading a page reads, and writes nothing. -/
theorem servesOnly_load (w : Backed size δ) (p : PageId) (f : Fin size) :
    ServesOnly S w.disk (w.load p f).state.disk := by
  have hread := (ServesOnly.refl : ServesOnly S w.disk w.disk).read p (w.shard.frame f).bytes
  rw [load]
  dsimp only
  split <;> exact hread

/-- A fetch writes at most the page that has to make room. -/
theorem servesOnly_fetch (h : w.shard.Kept s capacity w.shard.free)
    (hresident : ∀ (p : PageId) f, w.shard.table[p]? = some f → S p) (p : PageId) :
    ServesOnly S w.disk (w.fetch s p).state.disk := by
  have hacquire := servesOnly_of_acquisition h.acquisition hresident
  rw [fetch]
  split
  · split
    · -- a page that is resident needs no frame
      rw [pinAgain]
      dsimp only
      split <;> exact .refl
    · exact Outcome.state_andThen (P := fun w' : Backed size δ => ServesOnly S w.disk w'.disk)
        hacquire fun f _ => hacquire.trans (servesOnly_load _ p f)
  · exact .refl

/-- A creation writes at most the page that has to make room. -/
theorem servesOnly_newPage (h : w.shard.Kept s capacity w.shard.free)
    (hresident : ∀ (p : PageId) f, w.shard.table[p]? = some f → S p) :
    ServesOnly S w.disk (w.newPage s).state.disk := by
  have hacquire := servesOnly_of_acquisition h.acquisition hresident
  have hcreation := w.creation s
  generalize (w.newPage s).result = r, (w.newPage s).state = w' at hcreation
  cases hcreation with
  | exhausted => exact .refl
  | unplaced | foreign | made => exact hacquire

omit [PageStore δ] in
/-- An unpin has nothing to do with the disk. -/
theorem disk_unpin (s : Stripe) (w : Backed size δ) (p : PageId) (dirty : Bool) :
    (w.unpin s p dirty).state.disk = w.disk := by
  have hunpin := w.unpin_cases s p dirty
  generalize (w.unpin s p dirty).result = r, (w.unpin s p dirty).state = w' at hunpin
  cases hunpin <;> rfl

/-- A look at a page writes that page at most, and only if it is resident. -/
theorem servesOnly_tryFlush (latched : Fin size → Bool)
    (hresident : ∀ (p : PageId) f, w.shard.table[p]? = some f → S p) (p : PageId) :
    ServesOnly S w.disk (w.tryFlush latched p).state.disk := by
  have hlooked := w.looked latched p
  generalize (w.tryFlush latched p).result = r at hlooked
  generalize (w.tryFlush latched p).state = w' at hlooked ⊢
  cases hlooked with
  | absent | clean | busy => exact .refl
  | written hp _ _ hwrite | unwritten hp _ _ hwrite => exact .of_write (hresident _ _ hp) hwrite

/-- A sweep writes resident pages only. -/
theorem servesOnly_sweep (latched : Fin size → Bool) (pages : List PageId)
    (hresident : ∀ (p : PageId) f, w.shard.table[p]? = some f → S p) :
    ServesOnly S w.disk (sweep latched pages w).state.disk := by
  induction pages generalizing w with
  | nil => exact .refl
  | cons p pages ih =>
    have hlook := servesOnly_tryFlush latched hresident p
    -- a look leaves every page where it is
    have hsame := (sameButFlags_tryFlush latched w p).table
    have hrest := ih (w := (w.tryFlush latched p).state) (by rw [hsame]; exact hresident)
    rw [sweep]
    refine Outcome.state_andThen (P := fun w' : Backed size δ => ServesOnly S w.disk w'.disk) hlook
      fun look _ => ?_
    cases look <;> exact hlook.trans hrest

end Backed

/-! ## Pools -/

namespace System

variable {l : Layout} {w : System l size δ} {capacity : Nat} {i : Fin l.width} {p : PageId}

/-- The resident pages are all in `S`. -/
def HoldsOnly (w : System l size δ) (S : PageId → Prop) : Prop :=
  ∀ i (p : PageId) f, (w.pool.shard i).table[p]? = some f → S p

/-- A fetch from the pool writes resident pages only. -/
theorem servesOnly_fetch (h : w.Kept capacity) (hholds : w.HoldsOnly S) (p : PageId) :
    ServesOnly S w.disk (w.fetch p).state.disk :=
  Backed.servesOnly_fetch (w := w.backed (l.route p)) (h _) (hholds _) p

/-- A creation in one shard writes resident pages only. -/
theorem servesOnly_newPageIn (h : w.Kept capacity) (hholds : w.HoldsOnly S) (i : Fin l.width) :
    ServesOnly S w.disk (w.newPageIn i).state.disk :=
  Backed.servesOnly_newPage (w := w.backed i) (h i) (hholds i)

omit [PageStore δ] in
/-- An unpin has nothing to do with the disk. -/
theorem disk_unpin (w : System l size δ) (p : PageId) (dirty : Bool) :
    (w.unpin p dirty).state.disk = w.disk :=
  Backed.disk_unpin ..

/-- A flush of some shards writes resident pages only. -/
theorem servesOnly_flushShards (visit : Visit) (shards : List (Fin l.width))
    (hholds : w.HoldsOnly S) :
    ServesOnly S w.disk (flushShards visit shards w).state.disk := by
  induction shards generalizing w with
  | nil => exact .refl
  | cons i rest ih =>
    have hflush : ServesOnly S w.disk (w.onShard i fun _ b => b.flushAll visit).state.disk :=
      Backed.servesOnly_sweep (w := w.backed i) Backed.noWriter _ (hholds i)
    have hholds' : (w.onShard i fun _ b => b.flushAll visit).state.HoldsOnly S := by
      intro j p f hp
      rw [shard_onShard] at hp
      split at hp
      · next hij =>
        -- a sweep leaves every page where it is
        rw [(Backed.sameButFlags_flushAll visit (w.backed i)).table] at hp
        exact hholds i p f hp
      · exact hholds j p f hp
    rw [flushShards]
    exact Outcome.state_andThen (P := fun w' : System l size δ => ServesOnly S w.disk w'.disk)
      hflush fun _ _ => hflush.trans (ih hholds')

end System

/-! ## Page files -/

/-- A page file ends where some page of `S` ends, unless it is empty. -/
def Medium.Extent (S : PageId → Prop) : Medium → Prop
  | memory _ => True
  | file f => f.image.size = 0 ∨ ∃ p, S p ∧ f.image.size = (p.val + 1) * pageSize

/-- Reading makes no file longer. -/
theorem Medium.extent_read {m : Medium} (h : m.Extent S) (p : PageId) (buffer : Page) :
    (m.read p buffer).store.Extent S := by
  cases m with
  | memory m => trivial
  | file f =>
    have hstore : ((Medium.file f).read p buffer).store = .file f :=
      congrArg Medium.file (f.store_read p buffer)
    rw [hstore]
    exact h

/-- Writing a page of `S` makes a file end where that page ends, if it did not end later. -/
theorem Medium.extent_write {m : Medium} (h : m.Extent S) {p : PageId} (hp : S p) (page : Page) :
    (m.write p page).Extent S := by
  cases m with
  | memory m => trivial
  | file f =>
    have hsize : (f.write p page).image.size = max f.image.size ((p.val + 1) * pageSize) := rfl
    -- the file grows to the end of the page, or reached beyond it before
    rcases Nat.le_total f.image.size ((p.val + 1) * pageSize) with hle | hle
    · rw [Nat.max_eq_right hle] at hsize
      exact .inr ⟨p, hp, hsize⟩
    · rw [Nat.max_eq_left hle] at hsize
      show (f.write p page).image.size = 0 ∨ _
      rw [hsize]
      exact h

/-- What requests keep of a medium is kept of the medium of a disk, whatever faults there are. -/
theorem Disk.keeps_of_servesOnly {P : Medium → Prop} {d e : Disk} (h : ServesOnly S d e)
    (hread : ∀ m p buffer, P m → P (Medium.read p buffer m).store)
    (hwrite : ∀ m p page, S p → P m → P (Medium.write p page m)) (hd : P d.medium) :
    P e.medium := by
  refine h.keeps (P := fun d => P d.medium) (fun d p buffer hd => ?_) (fun d p page hp hd => ?_) hd
  · show P (d.read p buffer).store.medium
    rw [Disk.read]
    split
    · exact hd
    · exact hread _ p buffer hd
  · show P (d.write p page).2.medium
    rw [Disk.write]
    split
    · exact hd
    · exact hwrite _ p page hp hd

/-- So the file ends with some page of `S` after all such requests. -/
theorem Disk.extent_of_servesOnly {d e : Disk} (h : ServesOnly S d e) (hd : d.medium.Extent S) :
    e.medium.Extent S :=
  keeps_of_servesOnly h (fun _ p buffer hm => Medium.extent_read hm p buffer)
    (fun _ _ page hp hm => Medium.extent_write hm hp page) hd

/-- A medium stays what it is. -/
theorem Disk.isSome_fileSize?_of_servesOnly {d e : Disk} (h : ServesOnly S d e) :
    e.medium.fileSize?.isSome = d.medium.fileSize?.isSome := by
  refine keeps_of_servesOnly (P := fun m => m.fileSize?.isSome = d.medium.fileSize?.isSome) h
    (fun m p buffer hm => ?_) (fun m p page _ hm => ?_) rfl
  · rw [← hm]
    cases m <;> rfl
  · rw [← hm]
    cases m <;> rfl

/-- If a page file has all its pages, and something in each, it has no more than these. -/
theorem FileStore.size_eq_of_extent {f : FileStore} {k : Nat} (hextent : (Medium.file f).Extent S)
    (hwhole : (Medium.file f).Whole) (hS : ∀ p, S p ↔ p.val < k) (hk : k ≤ UInt32.size)
    (hshown : ∀ p, S p → (Medium.file f).contents p ≠ .zero) : f.image.size = k * pageSize := by
  -- no longer, since only the first `k` pages were written
  apply Nat.le_antisymm
  · rcases hextent with hempty | ⟨p, hp, hsize⟩
    · exact hempty ▸ Nat.zero_le _
    · exact hsize ▸ Nat.mul_le_mul_right _ ((hS p).mp hp)
  · cases k with
    | zero => exact (Nat.zero_mul pageSize).symm ▸ Nat.zero_le _
    | succ k =>
      -- the last page would be beyond the end, and show zeros
      by_contra hlt
      obtain ⟨n, hn⟩ := hwhole
      have hle : n ≤ k := by
        rw [hn, Nat.mul_comm, Nat.mul_le_mul_left_iff pageSize_pos, Nat.not_le] at hlt
        exact Nat.le_of_lt_succ hlt
      have hend : f.image.size ≤ k * pageSize := by
        rw [hn, Nat.mul_comm]
        exact Nat.mul_le_mul_right _ hle
      exact hshown ⟨k, hk⟩ ((hS _).mpr (Nat.lt_succ_self k)) (f.image.block_of_size_le hend)

end PageCache
