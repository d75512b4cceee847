import PageCache.Proofs.Store.Lawful

/-!
# Disks of which every page can be read

What a page of the disk is, to a pool, is what a read of it gives when no fault is in the way:
`Disk.Reads`. A medium is `Readable` if every page of it can be read, and requests of a pool keep it
so (`Disk.readable_of_serves`). A read then gives what the disk has (`Disk.reads_contents`).
-/

namespace PageCache

/-- Reading page `p` succeeds exactly if the file ends before the page or behind it. -/
theorem FileStore.result_read_iff (f : FileStore) (p : PageId) (buffer : Page) :
    (f.read p buffer).result = .ok () ↔
      f.image.size ≤ p.offset ∨ p.offset + pageSize ≤ f.image.size := by
  rw [FileStore.read]
  split
  · next hend => exact iff_of_true rfl (.inl hend)
  · next hend =>
    split
    · next hwhole => exact iff_of_true rfl (.inr hwhole)
    · next hshort => exact iff_of_false (by simp) (not_or_intro hend hshort)

/-- A page the file does not end inside of stays so, whatever page is written. -/
theorem FileStore.whole_or_past_write {f : FileStore} {q : PageId}
    (hq : f.image.size ≤ q.offset ∨ q.offset + pageSize ≤ f.image.size) (p : PageId)
    (page : Page) :
    (f.write p page).image.size ≤ q.offset ∨
      q.offset + pageSize ≤ (f.write p page).image.size := by
  show max f.image.size ((p.val + 1) * pageSize) ≤ q.val * pageSize ∨
    q.val * pageSize + pageSize ≤ max f.image.size ((p.val + 1) * pageSize)
  -- the file now reaches to the end of page `p` at least, so a page up to `p` is all there
  rcases Nat.lt_or_ge p.val q.val with hlt | hle
  · have hend : (p.val + 1) * pageSize ≤ q.val * pageSize := Nat.mul_le_mul_right _ hlt
    rw [PageId.offset] at hq
    omega
  · have hend : (q.val + 1) * pageSize ≤ (p.val + 1) * pageSize :=
      Nat.mul_le_mul_right _ (Nat.succ_le_succ hle)
    rw [Nat.succ_mul] at hend
    omega

namespace Medium

/-- Every page can be read. -/
def Readable (m : Medium) : Prop :=
  ∀ (p : PageId) (buffer : Page), (m.read p buffer).result = .ok ()

theorem readable_write {m : Medium} (h : m.Readable) (p : PageId) (page : Page) :
    (m.write p page).Readable := by
  intro q buffer
  cases m with
  | memory m => rfl
  | file f =>
    have hq := (f.result_read_iff q buffer).mp (h q buffer)
    exact ((f.write p page).result_read_iff q buffer).mpr (FileStore.whole_or_past_write hq p page)

theorem readable_read {m : Medium} (h : m.Readable) (p : PageId) (buffer : Page) :
    (m.read p buffer).store.Readable := by
  cases m with
  | memory m => exact fun _ _ => rfl
  | file f =>
    show (Medium.file (f.read p buffer).store).Readable
    rw [FileStore.read]
    split
    · exact h
    · split <;> exact h

theorem readable_deallocate {m : Medium} (h : m.Readable) (p : PageId) :
    (m.deallocate p).1.Readable := by
  cases m with
  | memory m => exact fun _ _ => rfl
  | file f =>
    intro q buffer
    -- the file is as long as before
    have hq : f.image.size ≤ q.offset ∨ q.offset + pageSize ≤ f.image.size :=
      (f.result_read_iff q buffer).mp (h q buffer)
    exact ((f.deallocate p).result_read_iff q buffer).mpr hq

end Medium

namespace Disk

/-- With no fault in the way, a read of page `p` gives `page`. -/
def Reads (d : Disk) (p : PageId) (page : Page) : Prop :=
  ∀ buffer, (Disk.read { d with faults := .none } p buffer).result = .ok () ∧
    (Disk.read { d with faults := .none } p buffer).buffer = page

variable {d e : Disk} {p : PageId} {page : Page}

theorem read_without_faults (d : Disk) (p : PageId) (buffer : Page) :
    (Disk.read { d with faults := .none } p buffer).result = (d.medium.read p buffer).result ∧
      (Disk.read { d with faults := .none } p buffer).buffer =
        (d.medium.read p buffer).buffer :=
  ⟨rfl, rfl⟩

theorem Reads.result_eq (h : d.Reads p page) (buffer : Page) :
    (d.medium.read p buffer).result = .ok () :=
  (d.read_without_faults p buffer).1 ▸ (h buffer).1

theorem Reads.contents_eq (h : d.Reads p page) : d.contents p = page := by
  have hbuffer := Medium.buffer_read (h.result_eq .zero)
  rw [← (d.read_without_faults p .zero).2, (h .zero).2] at hbuffer
  exact hbuffer.symm

/-- A read gives what the disk has. -/
theorem reads_contents (h : d.medium.Readable) (p : PageId) : d.Reads p (d.contents p) :=
  fun buffer => ⟨h p buffer, Medium.buffer_read (h p buffer)⟩

theorem readable_of_serves (h : Serves d e) (hd : d.medium.Readable) : e.medium.Readable := by
  refine h.keeps (P := fun d => d.medium.Readable) ?_ ?_ ?_ hd
  · intro d p buffer hd
    show (d.read p buffer).store.medium.Readable
    rw [Disk.read]
    split
    · exact hd
    · exact Medium.readable_read hd p buffer
  · intro d p page hd
    show (d.write p page).2.medium.Readable
    rw [Disk.write]
    split
    · exact hd
    · exact Medium.readable_write hd p page
  · intro d p hd
    exact Medium.readable_deallocate hd p

end Disk

end PageCache
