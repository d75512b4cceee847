import PageCache.LittleEndian
import PageCache.Page.Edit
import PageCache.Store.Image

/-!
# Stamps

A stamped page tells which page it is and how often it was stamped: its first four bytes are its
id, the next eight a count, both low byte first. A page that was never stamped is stamped for page
zero, zero times.
-/

namespace PageCache.Page

/-- `count` bytes from offset `start`, with zeros beyond the end. -/
def slice (page : Page) (start count : Nat) : List UInt8 :=
  (List.range count).map fun i => if h : start + i < pageSize then page[start + i] else 0

/-- The number of the page this one is stamped for. -/
def stampedFor (page : Page) : Nat :=
  LittleEndian.decode (page.slice 0 4)

def stampCount (page : Page) : Nat :=
  LittleEndian.decode (page.slice 4 8)

/-- The page stamped for `p`, `count` times, and zero otherwise. -/
def stamped (p : PageId) (count : Nat) : Page :=
  zero.edit [.put 0 (LittleEndian.encode 4 p.val ++ LittleEndian.encode 8 count)]

/-- Stamp the page for `p` once more; the rest of it is left alone. -/
def stamp (p : PageId) (page : Page) : Page :=
  page.edit [.put 0 (LittleEndian.encode 4 p.val ++ LittleEndian.encode 8 (page.stampCount + 1))]

end PageCache.Page

namespace PageCache.Image

/-! ## Auditing a page file -/

def wholePages (m : Image) : Bool :=
  m.size % pageSize = 0

def pages (m : Image) : Nat :=
  m.size / pageSize

/-- Page `k` is stamped for itself, at least once, and holds nothing else. -/
def stampedAt (m : Image) (k : Nat) : Bool :=
  match PageId.ofNat? k with
  | none => false
  | some p =>
    let page := m.block k
    0 < page.stampCount && page = .stamped p page.stampCount

def allStamped (m : Image) : Bool :=
  (List.range m.pages).all m.stampedAt

end PageCache.Image
