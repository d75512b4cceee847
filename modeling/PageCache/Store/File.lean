import Std.Data.ExtTreeSet
import PageCache.Store.Basic
import PageCache.Store.Image

/-!
# Pages in a file

Page `p` lies at offset `p * pageSize`. A page that starts beyond the end reads as zeros; one that
the file ends inside of cannot be read. Which pages were handed back is remembered only while the
file is open.
-/

namespace PageCache

structure FileStore where
  image : Image
  deallocated : Std.ExtTreeSet PageId

/-- What a path names before a page file is opened there. -/
inductive Target
  | file (image : Image)
  /-- Nothing, in a directory that exists. -/
  | vacant
  | directory
  /-- Nothing, in a directory that does not exist either. -/
  | nowhere
  /-- Nothing, because no file can have such a name. -/
  | overlong

namespace FileStore

/-- Start an empty page file, whatever the file held before. -/
def create : Target → Except IoError FileStore
  | .file _ | .vacant => .ok ⟨.empty, ∅⟩
  | .directory => .error .isDirectory
  | .nowhere => .error .notFound
  | .overlong => .error .nameTooLong

/-- Open the page file that is there. -/
def openExisting : Target → Except IoError FileStore
  | .file image => .ok ⟨image, ∅⟩
  | .directory => .error .isDirectory
  | .vacant | .nowhere => .error .notFound
  | .overlong => .error .nameTooLong

/-- Whole pages in the file, as far as one word can count them. -/
def pageCount (f : FileStore) : Nat :=
  f.image.size / pageSize % UInt32.size

/-- The buffer after the bytes the file still has for `p` were copied into it. -/
def fillAvailable (f : FileStore) (p : PageId) (buffer : Page) : Page :=
  .ofFn fun i =>
    if p.offset + i.val < f.image.size then f.image.byte (p.offset + i.val)
    else getElem buffer i.val i.isLt

def read (f : FileStore) (p : PageId) (buffer : Page) : ReadBack FileStore :=
  if f.image.size ≤ p.offset then ⟨.ok (), .zero, f, [.pastEnd p]⟩
  else if p.offset + pageSize ≤ f.image.size then ⟨.ok (), f.image.block p.val, f, []⟩
  else ⟨.error .shortRead, f.fillAvailable p buffer, f, []⟩

/-- A written page is in use again; the file grows to hold it. -/
def write (f : FileStore) (p : PageId) (page : Page) : FileStore where
  image := f.image.writeBlock p.val page
  deallocated := f.deallocated.erase p

def deallocate (f : FileStore) (p : PageId) : FileStore :=
  { f with deallocated := f.deallocated.insert p }

def isDeallocated (f : FileStore) (p : PageId) : Bool :=
  f.deallocated.contains p

/-- Make the file one page longer than the pages it counts. -/
def reserve (f : FileStore) : PageId × FileStore :=
  (.wrap f.pageCount, { f with image := f.image.resize ((f.pageCount + 1) * pageSize) })

instance : PageStore FileStore where
  read := read
  write f p page := (.ok (), f.write p page)
  deallocate f p := (f.deallocate p, [.deallocating p])

end FileStore

end PageCache
