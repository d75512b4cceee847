import Std.Data.ExtTreeSet
import PageCache.Store.Basic

/-!
# Pages in memory

A page that was never written reads as zeros. The store counts what reaches it.
-/

namespace PageCache

structure MemoryStore where
  /-- The pages that have been written. -/
  pages : Std.ExtTreeMap PageId Page
  deallocated : Std.ExtTreeSet PageId
  /-- The id `reserve` gives next; the numbers start over after the last. -/
  nextId : PageId
  reads : Nat
  writes : Nat
  deallocations : Nat

namespace MemoryStore

def empty : MemoryStore :=
  ⟨∅, ∅, .wrap 0, 0, 0, 0⟩

/-- What the page shows: the bytes last written, or zeros. -/
def bytes (m : MemoryStore) (p : PageId) : Page :=
  m.pages[p]?.getD .zero

def read (m : MemoryStore) (p : PageId) : Page × MemoryStore :=
  (m.bytes p, { m with reads := m.reads + 1 })

/-- A written page is in use again. -/
def write (m : MemoryStore) (p : PageId) (page : Page) : MemoryStore :=
  { m with
    pages := m.pages.insert p page
    deallocated := m.deallocated.erase p
    writes := m.writes + 1 }

def deallocate (m : MemoryStore) (p : PageId) : MemoryStore :=
  { m with
    deallocated := m.deallocated.insert p
    deallocations := m.deallocations + 1 }

def isDeallocated (m : MemoryStore) (p : PageId) : Bool :=
  m.deallocated.contains p

def reserve (m : MemoryStore) : PageId × MemoryStore :=
  (m.nextId, { m with nextId := .wrap (m.nextId.val + 1) })

/-! ## Laws -/

theorem bytes_empty (p : PageId) : empty.bytes p = .zero := by
  simp [bytes, empty]

theorem bytes_write (m : MemoryStore) (p q : PageId) (page : Page) :
    (m.write p page).bytes q = if p = q then page else m.bytes q := by
  simp only [bytes, write, Std.ExtTreeMap.getElem?_insert, Std.LawfulEqCmp.compare_eq_iff_eq]
  split <;> rfl

theorem isDeallocated_write (m : MemoryStore) (p q : PageId) (page : Page) :
    (m.write p page).isDeallocated q = (p != q && m.isDeallocated q) := by
  rw [Bool.eq_iff_iff]
  simp [isDeallocated, write, Std.ExtTreeSet.contains_erase]

theorem isDeallocated_deallocate (m : MemoryStore) (p q : PageId) :
    (m.deallocate p).isDeallocated q = (p == q || m.isDeallocated q) := by
  rw [Bool.eq_iff_iff]
  simp [isDeallocated, deallocate, Std.ExtTreeSet.contains_insert]

instance : PageStore MemoryStore where
  read m p _ := let (page, m) := m.read p; ⟨.ok (), page, m, []⟩
  write m p page := (.ok (), m.write p page)
  deallocate m p := (m.deallocate p, [])

end MemoryStore

end PageCache
