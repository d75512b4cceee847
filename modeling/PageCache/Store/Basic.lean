import PageCache.Error
import PageCache.Event
import PageCache.Page.Bytes

/-!
# What a pool asks of its disk

A pool reads and writes whole pages by id, and says when a page's space may be reclaimed. A store
is any state with these three operations; a pool is defined over every one of them, so what holds
of a pool without a law about its store holds whatever the disk does.
-/

namespace PageCache

/-- A finished read: whether it succeeded, and what it left in the buffer either way. -/
structure ReadBack (δ : Type) where
  result : Except IoError Unit
  buffer : Page
  store : δ
  events : List Event

/-- The same reading, of a store seen as part of another. -/
def ReadBack.map {δ ε : Type} (f : δ → ε) (r : ReadBack δ) : ReadBack ε :=
  ⟨r.result, r.buffer, f r.store, r.events⟩

class PageStore (δ : Type) where
  /-- Read a page into a buffer that held `buffer`. -/
  read : (store : δ) → (page : PageId) → (buffer : Page) → ReadBack δ
  write : (store : δ) → (page : PageId) → (bytes : Page) → Except IoError Unit × δ
  deallocate : (store : δ) → (page : PageId) → δ × List Event

end PageCache
