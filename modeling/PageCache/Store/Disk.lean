import PageCache.Store.File
import PageCache.Store.Memory

/-!
# The disk under a pool

A disk is one of the two media with faults laid over it. A faulty read scribbles over the buffer
and fails; a faulty write fails; neither reaches the medium. Faults are a rule on page ids, and
the rule may be replaced at any time.
-/

namespace PageCache

inductive Medium
  | memory (store : MemoryStore)
  | file (store : FileStore)

structure Faults where
  read : PageId → Bool
  write : PageId → Bool

structure Disk where
  medium : Medium
  faults : Faults

def Faults.none : Faults :=
  ⟨fun _ => false, fun _ => false⟩

/-! ## Media -/

namespace Medium

def read (p : PageId) (buffer : Page) : Medium → ReadBack Medium
  | memory m => (PageStore.read m p buffer).map memory
  | file f => (PageStore.read f p buffer).map file

def write (p : PageId) (page : Page) : Medium → Medium
  | memory m => memory (m.write p page)
  | file f => file (f.write p page)

def deallocate (p : PageId) : Medium → Medium × List Event
  | memory m => let (m, events) := PageStore.deallocate m p; (memory m, events)
  | file f => let (f, events) := PageStore.deallocate f p; (file f, events)

def isDeallocated (p : PageId) : Medium → Bool
  | memory m => m.isDeallocated p
  | file f => f.isDeallocated p

def reserve : Medium → PageId × Medium
  | memory m => let (p, m) := m.reserve; (p, memory m)
  | file f => let (p, f) := f.reserve; (p, file f)

/-- The bytes of a page that was written, where the medium can tell. -/
def writtenBytes? (p : PageId) : Medium → Option Page
  | memory m => m.pages[p]?
  | file _ => none

def fileSize? : Medium → Option Nat
  | memory _ => none
  | file f => some f.image.size

def resizeFile (n : Nat) : Medium → Medium
  | memory m => memory m
  | file f => file { f with image := f.image.resize n }

instance : PageStore Medium where
  read m p buffer := m.read p buffer
  write m p page := (.ok (), m.write p page)
  deallocate m p := m.deallocate p

end Medium

/-! ## Faults -/

namespace Disk

/-- The byte a faulty read leaves everywhere in the buffer. -/
def scribble : UInt8 := 0xEE

def onMedium (m : Medium) : Disk :=
  ⟨m, .none⟩

def read (d : Disk) (p : PageId) (buffer : Page) : ReadBack Disk :=
  if d.faults.read p then ⟨.error .readFault, .fill scribble, d, []⟩
  else (d.medium.read p buffer).map fun medium => { d with medium }

def write (d : Disk) (p : PageId) (page : Page) : Except IoError Unit × Disk :=
  if d.faults.write p then (.error .writeFault, d)
  else (.ok (), { d with medium := d.medium.write p page })

def deallocate (d : Disk) (p : PageId) : Disk × List Event :=
  let (medium, events) := d.medium.deallocate p
  ({ d with medium }, events)

instance : PageStore Disk where
  read := read
  write := write
  deallocate := deallocate

end Disk

end PageCache
