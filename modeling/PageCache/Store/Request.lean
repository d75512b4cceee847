import PageCache.Outcome
import PageCache.Page.Edit
import PageCache.Store.Disk

/-!
# Requests to a disk

What can be asked of a disk past any pool. Such requests reach the medium itself, faults do not
apply to them; and whoever makes them brings a buffer of his own, which may have the wrong size.
-/

namespace PageCache

inductive DiskOp
  /-- Read a page into a buffer of `length` bytes. -/
  | read (p : PageId) (length : Nat)
  /-- Write `length` zero bytes, with `edits` made to them. -/
  | write (p : PageId) (length : Nat) (edits : List Edit)
  | reserve
  | deallocate (p : PageId)
  | isDeallocated (p : PageId)
  /-- The bytes of a page that was written to memory. -/
  | writtenBytes (p : PageId)
  | fileSize
  /-- Cut or extend the file, as somebody else might. -/
  | resizeFile (n : Nat)
  /-- Replace the rule by which a pool's reads and writes fail. -/
  | setFaults (faults : Faults)

inductive DiskReply
  /-- Done, by an operation that cannot fail. -/
  | nothing
  /-- Done, by an operation that can fail. -/
  | done
  | truth (b : Bool)
  | number (n : Nat)
  | bytes (bytes : ByteArray)
deriving DecidableEq

/-! ## Buffers -/

namespace Medium

def readBuffer (m : Medium) (p : PageId) (buffer : ByteArray) : Outcome Medium ByteArray :=
  match Page.ofBytes? buffer with
  | none => .fail (.storage (.bufferSize buffer.size)) m
  | some page =>
    let r := m.read p page
    .after r.events
      (match r.result with
      | .ok () => .ok r.buffer.bytes r.store
      | .error e => .fail (.storage (.io e)) r.store)

def writeBuffer (m : Medium) (p : PageId) (buffer : ByteArray) : Outcome Medium Unit :=
  match Page.ofBytes? buffer with
  | none => .fail (.storage (.bufferSize buffer.size)) m
  | some page => .ok () (m.write p page)

end Medium

/-! ## Requests -/

namespace Disk

/-- What a read buffer holds before the read. -/
def bufferByte : UInt8 := 0xAA

def withMedium (d : Disk) (medium : Medium) : Disk :=
  { d with medium }

def perform (d : Disk) : DiskOp → Outcome Disk DiskReply
  | .read p length =>
    ((d.medium.readBuffer p (Edit.fillBytes length bufferByte)).map .bytes).inside d.withMedium
  | .write p length edits =>
    ((d.medium.writeBuffer p (Edit.applyAll edits (Edit.fillBytes length 0))).map
      fun () => .done).inside d.withMedium
  | .reserve =>
    let (p, medium) := d.medium.reserve
    .ok (.number p.val) (d.withMedium medium)
  | .deallocate p =>
    let (medium, events) := d.medium.deallocate p
    .after events (.ok .nothing (d.withMedium medium))
  | .isDeallocated p => .ok (.truth (d.medium.isDeallocated p)) d
  | .writtenBytes p =>
    .ok (match d.medium.writtenBytes? p with
      | some page => .bytes page.bytes
      | none => .nothing) d
  | .fileSize =>
    .ok (match d.medium.fileSize? with
      | some n => .number n
      | none => .nothing) d
  | .resizeFile n => .ok .nothing (d.withMedium (d.medium.resizeFile n))
  | .setFaults faults => .ok .nothing { d with faults }

end Disk

end PageCache
