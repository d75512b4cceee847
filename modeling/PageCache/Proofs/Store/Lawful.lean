import Mathlib.Logic.Function.Basic
import PageCache.Store.Disk

/-!
# Stores that keep what they are given

A pool is defined over any store. What it can promise about bytes depends on the store telling the
truth: `LawfulStore` is the contract, and a disk, in memory or in a file and with any faults laid
over it, fulfils it. A request may fail at any time; then it has changed nothing.

`Serves d e` says that `e` is what became of `d` by requests of a pool. What every request keeps is
kept by all of them (`Serves.keeps`).
-/

namespace PageCache

class LawfulStore (δ : Type) [PageStore δ] where
  /-- What the store has of a page. -/
  contents : δ → PageId → Page
  buffer_read : ∀ {d : δ} {p : PageId} {buffer : Page},
    (PageStore.read d p buffer).result = .ok () →
      (PageStore.read d p buffer).buffer = contents d p
  contents_read : ∀ (d : δ) (p : PageId) (buffer : Page),
    contents (PageStore.read d p buffer).store = contents d
  contents_write : ∀ {d e : δ} {p : PageId} {page : Page},
    PageStore.write d p page = (.ok (), e) → contents e = Function.update (contents d) p page
  contents_failed_write : ∀ {d e : δ} {p : PageId} {page : Page} {cause : IoError},
    PageStore.write d p page = (.error cause, e) → contents e = contents d
  contents_deallocate : ∀ (d : δ) (p : PageId),
    contents (PageStore.deallocate d p).1 = contents d

/-! ## What requests lead to -/

inductive Serves {δ : Type} [PageStore δ] (d : δ) : δ → Prop
  | refl : Serves d d
  | read {e : δ} (h : Serves d e) (p : PageId) (buffer : Page) :
      Serves d (PageStore.read e p buffer).store
  | write {e : δ} (h : Serves d e) (p : PageId) (page : Page) :
      Serves d (PageStore.write e p page).2
  | deallocate {e : δ} (h : Serves d e) (p : PageId) : Serves d (PageStore.deallocate e p).1

namespace Serves

variable {δ : Type} [PageStore δ] {d e f : δ}

/-- Requests may go on where others ended. -/
theorem trans (h : Serves d e) (h' : Serves e f) : Serves d f := by
  induction h' with
  | refl => exact h
  | read _ p buffer ih => exact ih.read p buffer
  | write _ p page ih => exact ih.write p page
  | deallocate _ p ih => exact ih.deallocate p

/-- A write is a request, however it ends. -/
theorem of_write {p : PageId} {page : Page} {result : Except IoError Unit}
    (h : PageStore.write d p page = (result, e)) : Serves d e := by
  have hw := (Serves.refl : Serves d d).write p page
  rwa [h] at hw

/-- What every request keeps is kept. -/
theorem keeps {P : δ → Prop} (hread : ∀ d p buffer, P d → P (PageStore.read d p buffer).store)
    (hwrite : ∀ d p page, P d → P (PageStore.write d p page).2)
    (hdeallocate : ∀ d p, P d → P (PageStore.deallocate d p).1)
    (h : Serves d e) (hd : P d) : P e := by
  induction h with
  | refl => exact hd
  | read _ p buffer ih => exact hread _ p buffer ih
  | write _ p page ih => exact hwrite _ p page ih
  | deallocate _ p ih => exact hdeallocate _ p ih

end Serves

/-- No request fails, now or later. -/
def Reliable {δ : Type} [PageStore δ] (d : δ) : Prop :=
  ∀ e, Serves d e → (∀ p buffer, (PageStore.read e p buffer).result = .ok ()) ∧
    ∀ p page, ∃ f, PageStore.write e p page = (.ok (), f)

/-- A store that never fails goes on not to. -/
theorem Reliable.serves {δ : Type} [PageStore δ] {d e : δ} (h : Reliable d) (hserves : Serves d e) :
    Reliable e :=
  fun f hf => h f (hserves.trans hf)

/-! ## Images -/

namespace Image

/-- A block shows the bytes of the file, and zeros beyond its end. -/
theorem getElem_block (m : Image) (k j : Nat) (hj : j < pageSize) :
    (m.block k)[j] = m.byte (k * pageSize + j) := by
  have hdiv : (k * pageSize + j) / pageSize = k := by
    rw [Nat.mul_comm, Nat.mul_add_div pageSize_pos, Nat.div_eq_of_lt hj, Nat.add_zero]
  have hmod : (k * pageSize + j) % pageSize = j := by
    rw [Nat.mul_comm, Nat.mul_add_mod, Nat.mod_eq_of_lt hj]
  simp only [byte, byteAt, block, hdiv, hmod]

/-- Beyond the end of the file there are zeros. -/
theorem block_of_size_le (m : Image) {k : Nat} (h : m.size ≤ k * pageSize) :
    m.block k = .zero := by
  apply Page.ext
  intro j hj
  rw [getElem_block, Page.getElem_zero]
  exact m.tail _ (by omega)

/-- A block that is written has the new bytes, and the others what they had. -/
theorem block_writeBlock (m : Image) (k j : Nat) (page : Page) :
    (m.writeBlock k page).block j = if k = j then page else m.block j := by
  simp only [block, blockAt, writeBlock, Std.ExtTreeMap.getElem?_insert,
    Std.LawfulEqCmp.compare_eq_iff_eq]
  split <;> rfl

end Image

/-! ## Disks -/

namespace Medium

/-- What the medium has of a page: the bytes last written to it, or zeros. -/
def contents : Medium → PageId → Page
  | memory m, p => m.bytes p
  | file f, p => f.image.block p.val

/-- Requests of a pool leave no page of the file half there. -/
def Whole : Medium → Prop
  | memory _ => True
  | file f => pageSize ∣ f.image.size

/-- A write changes the page it names, and no other. -/
theorem contents_write (m : Medium) (p : PageId) (page : Page) :
    (m.write p page).contents = Function.update m.contents p page := by
  funext q
  rw [Function.update_apply]
  cases m with
  | memory m =>
    show (m.write p page).bytes q = _
    rw [MemoryStore.bytes_write]
    exact if_congr eq_comm rfl rfl
  | file f =>
    show (f.image.writeBlock p.val page).block q.val = _
    -- the block of a page is the one with its number
    rw [Image.block_writeBlock]
    exact if_congr (by rw [PageId.ext_iff, eq_comm]) rfl rfl

/-- A read changes no page. -/
theorem contents_read (m : Medium) (p : PageId) (buffer : Page) :
    (m.read p buffer).store.contents = m.contents := by
  cases m with
  | memory m => rfl
  | file f =>
    show (Medium.file (f.read p buffer).store).contents = _
    unfold FileStore.read
    split
    · rfl
    · split <;> rfl

/-- A read that succeeds fills the buffer with what the medium has. -/
theorem buffer_read {m : Medium} {p : PageId} {buffer : Page}
    (h : (m.read p buffer).result = .ok ()) : (m.read p buffer).buffer = m.contents p := by
  cases m with
  | memory m => rfl
  | file f =>
    have h : (f.read p buffer).result = .ok () := h
    show (f.read p buffer).buffer = f.image.block p.val
    unfold FileStore.read at h ⊢
    split
    · next hend => exact (f.image.block_of_size_le hend).symm
    · split
      · rfl
      · -- an end inside the page is an error
        next hend hshort => simp [hend, hshort] at h

/-- To hand a page back changes no page. -/
theorem contents_deallocate (m : Medium) (p : PageId) :
    (m.deallocate p).1.contents = m.contents := by
  cases m <;> rfl

/-- Nothing but an end inside the page can keep a medium from reading it. -/
theorem result_read_of_whole {m : Medium} (h : m.Whole) (p : PageId) (buffer : Page) :
    (m.read p buffer).result = .ok () := by
  cases m with
  | memory m => rfl
  | file f =>
    obtain ⟨k, hk⟩ : pageSize ∣ f.image.size := h
    show (f.read p buffer).result = .ok ()
    unfold FileStore.read
    split
    · rfl
    · next hend =>
      -- the file ends at a page's end, so a page it reaches is all there
      rw [PageId.offset, hk, Nat.mul_comm pageSize, Nat.mul_le_mul_right_iff pageSize_pos] at hend
      have hle : (p.val + 1) * pageSize ≤ k * pageSize := Nat.mul_le_mul_right _ (by omega)
      have hroom : p.offset + pageSize ≤ f.image.size := by
        rw [PageId.offset, hk, Nat.mul_comm pageSize, ← Nat.succ_mul]
        exact hle
      rw [if_pos hroom]

/-- A write leaves no page half there: the file grows to the end of one. -/
theorem whole_write {m : Medium} (h : m.Whole) (p : PageId) (page : Page) :
    (m.write p page).Whole := by
  cases m with
  | memory m => trivial
  | file f =>
    obtain ⟨k, hk⟩ : pageSize ∣ f.image.size := h
    show pageSize ∣ max f.image.size ((p.val + 1) * pageSize)
    -- the file ends with this page, or where it did
    rcases Nat.le_total f.image.size ((p.val + 1) * pageSize) with hle | hle
    · rw [Nat.max_eq_right hle]
      exact Nat.dvd_mul_left ..
    · rw [Nat.max_eq_left hle]
      exact ⟨k, hk⟩

/-- A read leaves no page half there. -/
theorem whole_read {m : Medium} (h : m.Whole) (p : PageId) (buffer : Page) :
    (m.read p buffer).store.Whole := by
  cases m with
  | memory m => trivial
  | file f =>
    show (Medium.file (f.read p buffer).store).Whole
    unfold FileStore.read
    split
    · exact h
    · split <;> exact h

/-- Handing a page back leaves no page half there. -/
theorem whole_deallocate {m : Medium} (h : m.Whole) (p : PageId) : (m.deallocate p).1.Whole := by
  cases m <;> exact h

end Medium

namespace Disk

/-- What the disk has of a page. Faults are in the way of requests and change nothing about it. -/
def contents (d : Disk) : PageId → Page :=
  d.medium.contents

instance : LawfulStore Disk where
  contents := contents
  buffer_read {d p buffer} h := by
    have h : (d.read p buffer).result = .ok () := h
    show (d.read p buffer).buffer = _
    unfold Disk.read at h ⊢
    split
    · next hfault => simp [hfault] at h
    · next hfault =>
      rw [if_neg hfault] at h
      exact Medium.buffer_read h
  contents_read d p buffer := by
    show (d.read p buffer).store.contents = _
    unfold Disk.read
    split
    · rfl
    · exact d.medium.contents_read p buffer
  contents_write {d e p page} h := by
    have h : d.write p page = (.ok (), e) := h
    unfold Disk.write at h
    split at h
    · exact absurd h (by simp)
    · obtain rfl := (Prod.mk.inj h).2
      exact d.medium.contents_write p page
  contents_failed_write {d e p page cause} h := by
    have h : d.write p page = (.error cause, e) := h
    unfold Disk.write at h
    split at h
    · rw [(Prod.mk.inj h).2]
    · exact absurd h (by simp)
  contents_deallocate d p := d.medium.contents_deallocate p

/-- However many requests there are, no page is half there. -/
theorem whole_of_serves {d e : Disk} (h : Serves d e) (hd : d.medium.Whole) : e.medium.Whole := by
  refine h.keeps (P := fun d => d.medium.Whole) ?_ ?_ ?_ hd
  · intro d p buffer hd
    show (d.read p buffer).store.medium.Whole
    unfold Disk.read
    split
    · exact hd
    · exact Medium.whole_read hd p buffer
  · intro d p page hd
    show (d.write p page).2.medium.Whole
    unfold Disk.write
    split
    · exact hd
    · exact Medium.whole_write hd p page
  · intro d p hd
    exact Medium.whole_deallocate hd p

/-- Requests do not change what the disk refuses. -/
theorem faults_of_serves {d e : Disk} (h : Serves d e) : e.faults = d.faults := by
  refine h.keeps (P := fun e => e.faults = d.faults) ?_ ?_ ?_ rfl
  · intro e p buffer he
    show (e.read p buffer).store.faults = d.faults
    unfold Disk.read
    split <;> exact he
  · intro e p page he
    show (e.write p page).2.faults = d.faults
    unfold Disk.write
    split <;> exact he
  · intro e p he
    exact he

/-- Without faults, and with no page half there, a disk does whatever it is asked to. -/
theorem reliable_of_whole {d : Disk} (hfaults : d.faults = .none) (hd : d.medium.Whole) :
    Reliable d := by
  intro e he
  -- whatever was asked before, there are no faults
  have hnone : e.faults = .none := (faults_of_serves he).trans hfaults
  refine ⟨fun p buffer => ?_, fun p page => ?_⟩
  · show (e.read p buffer).result = .ok ()
    rw [Disk.read, hnone]
    exact Medium.result_read_of_whole (whole_of_serves he hd) p buffer
  · refine ⟨{ e with medium := e.medium.write p page }, ?_⟩
    show e.write p page = _
    rw [Disk.write, hnone]
    rfl

end Disk

end PageCache
