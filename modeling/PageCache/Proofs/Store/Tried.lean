import PageCache.Proofs.Shard.Simulation
import PageCache.Proofs.Store.Recorded

/-!
# A store with a list of the writes it refused

`Tried δ` is a store like `δ` that also lists the pages that it was to write and could not. It
answers as `δ` does (`Tried.simulates`), so a pool over it does what it does over `δ`, and which of
its writes were refused on the way can be read off the list.
-/

namespace PageCache

open PageStore (answer after)

structure Tried (δ : Type) where
  disk : δ
  /-- The pages whose writes failed, the first of them first. -/
  refused : List PageId

namespace Tried

variable {δ : Type} [PageStore δ]

/-- Write as `δ` does, and list the page if that fails. -/
def write (d : Tried δ) (p : PageId) (bytes : Page) : Except IoError Unit × Tried δ :=
  PageStore.writeThen d.disk p bytes (fun disk => ⟨disk, d.refused⟩)
    fun disk => ⟨disk, d.refused ++ [p]⟩

instance : PageStore (Tried δ) where
  read d p buffer := (PageStore.read d.disk p buffer).map fun disk => { d with disk }
  write := write
  deallocate d p :=
    let (disk, events) := PageStore.deallocate d.disk p
    ({ d with disk }, events)

/-- Nothing was refused yet. -/
def start (d : δ) : Tried δ :=
  ⟨d, []⟩

variable {d e : Tried δ} {p : PageId} {page : Page}

/-- A write that succeeds is not on the list. -/
theorem refused_of_ok (h : PageStore.write d p page = (.ok (), e)) : e.refused = d.refused := by
  obtain ⟨disk, rfl⟩ := PageStore.of_writeThen_ok (show d.write p page = _ from h)
  rfl

/-- A write that fails is. -/
theorem refused_of_error {cause : IoError} (h : PageStore.write d p page = (.error cause, e)) :
    e.refused = d.refused ++ [p] := by
  obtain ⟨disk, rfl⟩ := PageStore.of_writeThen_error (show d.write p page = _ from h)
  rfl

/-- The store answers as the one below does. -/
theorem answer_disk (d : Tried δ) (p : PageId) (call : PageCall) :
    answer d.disk p call = answer d p call := by
  cases call with
  | read | deallocate => rfl
  | write bytes => exact congrArg (·, bytes) (PageStore.fst_writeThen ..).symm

/-- The store below goes on as if it were alone. -/
theorem disk_after (d : Tried δ) (p : PageId) (call : PageCall) :
    (after d p call).disk = after d.disk p call := by
  cases call with
  | read | deallocate => rfl
  | write bytes => exact PageStore.below_writeThen (fun _ => rfl) (fun _ => rfl) d.disk p bytes

/-- The list makes no difference to what the store does. -/
theorem simulates (P : PageId → Prop) :
    StoreSimulation P fun (d : δ) (e : Tried δ) => d = e.disk where
  answer {d e p} h _ call := by
    rw [h]
    exact e.answer_disk p call
  after {d e p} h _ call := by
    rw [h]
    exact (e.disk_after p call).symm

end Tried

end PageCache
