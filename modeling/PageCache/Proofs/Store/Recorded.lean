import PageCache.Store.Basic

/-!
# A store with a record of its writes

`Recorded δ` is a store like `δ` that also lists what was written to it, in order. It answers as `δ`
does, and what a pool wrote in the course of something can be read off the record (`Saved`). Writes
that failed are not on it.
-/

namespace PageCache

/-! ## Stores on top of another -/

namespace PageStore

variable {δ ε : Type} [PageStore δ] {d : δ} {e : ε} {p : PageId} {bytes : Page}
variable {done failed : δ → ε}

/-- Write to the store below, and go on as `done` tells if that succeeds, and as `failed` tells if
it fails. -/
def writeThen (d : δ) (p : PageId) (bytes : Page) (done failed : δ → ε) :
    Except IoError Unit × ε :=
  match write d p bytes with
  | (.ok (), disk) => (.ok (), done disk)
  | (.error cause, disk) => (.error cause, failed disk)

/-- A write that succeeded went on as `done` tells. -/
theorem of_writeThen_ok (h : writeThen d p bytes done failed = (.ok (), e)) :
    ∃ disk, e = done disk := by
  unfold writeThen at h
  split at h
  · exact ⟨_, (congrArg Prod.snd h).symm⟩
  · exact absurd (congrArg Prod.fst h) (by simp)

/-- A write that failed went on as `failed` tells. -/
theorem of_writeThen_error {cause : IoError}
    (h : writeThen d p bytes done failed = (.error cause, e)) : ∃ disk, e = failed disk := by
  unfold writeThen at h
  split at h
  · exact absurd (congrArg Prod.fst h) (by simp)
  · exact ⟨_, (congrArg Prod.snd h).symm⟩

/-- What comes on top has no say in whether a write succeeds. -/
theorem fst_writeThen (d : δ) (p : PageId) (bytes : Page) (done failed : δ → ε) :
    (writeThen d p bytes done failed).1 = (write d p bytes).1 := by
  unfold writeThen
  split <;> next h => rw [h]

/-- What comes on top has no say in what becomes of the store below, where `below` finds that. -/
theorem below_writeThen {below : ε → δ} (hdone : ∀ disk, below (done disk) = disk)
    (hfailed : ∀ disk, below (failed disk) = disk) (d : δ) (p : PageId) (bytes : Page) :
    below (writeThen d p bytes done failed).2 = (write d p bytes).2 := by
  unfold writeThen
  split
  · next h => rw [h, hdone]
  · next h => rw [h, hfailed]

end PageStore

/-! ## The record -/

structure Recorded (δ : Type) where
  disk : δ
  /-- What was written, the first of it first. -/
  written : List (PageId × Page)

namespace Recorded

variable {δ : Type} [PageStore δ]

/-- Write as `δ` does, and put it on record if it succeeds. -/
def write (d : Recorded δ) (p : PageId) (bytes : Page) : Except IoError Unit × Recorded δ :=
  PageStore.writeThen d.disk p bytes (fun disk => ⟨disk, d.written ++ [(p, bytes)]⟩)
    fun disk => ⟨disk, d.written⟩

instance : PageStore (Recorded δ) where
  read d p buffer := (PageStore.read d.disk p buffer).map fun disk => { d with disk }
  write := write
  deallocate d p :=
    let (disk, events) := PageStore.deallocate d.disk p
    ({ d with disk }, events)

variable {d e f : Recorded δ} {p : PageId} {page : Page}

omit [PageStore δ] in
/-- The record of `e` is that of `d` and more. -/
def Grows (d e : Recorded δ) : Prop :=
  d.written <+: e.written

omit [PageStore δ] in
/-- Between `d` and `e` the bytes `page` were written as page `p`. -/
def Saved (p : PageId) (page : Page) (d e : Recorded δ) : Prop :=
  ∃ more, e.written = d.written ++ more ∧ (p, page) ∈ more

/-- A write that fails is not on record. -/
theorem written_of_error {cause : IoError}
    (h : PageStore.write d p page = (.error cause, e)) : e.written = d.written := by
  obtain ⟨disk, rfl⟩ := PageStore.of_writeThen_error (show d.write p page = _ from h)
  rfl

/-- A write that succeeds is. -/
theorem saved_of_write (h : PageStore.write d p page = (.ok (), e)) : Saved p page d e := by
  obtain ⟨disk, rfl⟩ := PageStore.of_writeThen_ok (show d.write p page = _ from h)
  exact ⟨[(p, page)], rfl, List.mem_singleton_self _⟩

omit [PageStore δ] in
theorem Saved.grows (h : Saved p page d e) : Grows d e := by
  obtain ⟨more, hmore, -⟩ := h
  exact ⟨more, hmore.symm⟩

omit [PageStore δ] in
theorem Grows.trans (h : Grows d e) (h' : Grows e f) : Grows d f :=
  List.IsPrefix.trans h h'

omit [PageStore δ] in
theorem Saved.before (h : Saved p page d e) (h' : Grows e f) : Saved p page d f := by
  obtain ⟨more, hmore, hmem⟩ := h
  obtain ⟨rest, hrest⟩ := h'
  refine ⟨more ++ rest, ?_, List.mem_append_left _ hmem⟩
  rw [← hrest, hmore, List.append_assoc]

omit [PageStore δ] in
theorem Saved.after (h : Saved p page e f) (h' : Grows d e) : Saved p page d f := by
  obtain ⟨more, hmore, hmem⟩ := h
  obtain ⟨rest, hrest⟩ := h'
  refine ⟨rest ++ more, ?_, List.mem_append_right _ hmem⟩
  rw [hmore, ← hrest, List.append_assoc]

/-- A write adds to the record, or leaves it. -/
theorem grows_of_write {result : Except IoError Unit}
    (h : PageStore.write d p page = (result, e)) : Grows d e := by
  cases result with
  | ok => exact (saved_of_write h).grows
  | error => exact ⟨[], by rw [written_of_error h, List.append_nil]⟩

end Recorded

end PageCache
