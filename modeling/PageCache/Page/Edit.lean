import PageCache.Page.Bytes

/-!
# Edits of a byte buffer

An edit changes bytes in place and never the number of them (`Edit.size_apply`), so a list of
edits takes pages to pages (`Page.edit`).
-/

namespace PageCache

inductive Edit
  /-- Every byte becomes `b`. -/
  | fill (b : UInt8)
  /-- Byte `i` becomes `(i + start) % 251`; the period does not divide the size of a page. -/
  | ramp (start : Nat)
  /-- The bytes from offset `start` on become `bytes`, as far as the buffer reaches. -/
  | put (start : Nat) (bytes : List UInt8)
deriving DecidableEq

namespace Edit

/-- A buffer of `n` bytes counting up from `start`. -/
def rampBytes (n start : Nat) : ByteArray :=
  Page.pack fun i : Fin n => UInt8.ofNat ((i.val + start) % 251)

/-- A buffer of `n` equal bytes. -/
def fillBytes (n : Nat) (b : UInt8) : ByteArray :=
  ⟨Array.replicate n b⟩

def putBytes (buffer : ByteArray) (start : Nat) : List UInt8 → ByteArray
  | [] => buffer
  | b :: rest =>
    if h : start < buffer.size then putBytes (buffer.set start b h) (start + 1) rest else buffer

def apply (buffer : ByteArray) : Edit → ByteArray
  | fill b => fillBytes buffer.size b
  | ramp start => rampBytes buffer.size start
  | put start bytes => putBytes buffer start bytes

def applyAll (edits : List Edit) (buffer : ByteArray) : ByteArray :=
  edits.foldl apply buffer

theorem size_putBytes (buffer : ByteArray) (start : Nat) (bytes : List UInt8) :
    (putBytes buffer start bytes).size = buffer.size := by
  induction bytes generalizing buffer start with
  | nil => rfl
  | cons b rest ih =>
    rw [putBytes]
    split
    · next h => exact (ih _ _).trans (Array.size_set h)
    · rfl

theorem size_apply (e : Edit) (buffer : ByteArray) : (e.apply buffer).size = buffer.size := by
  cases e with
  | fill b => exact Array.size_replicate
  | ramp start => exact Page.size_pack _
  | put start bytes => exact size_putBytes buffer start bytes

theorem size_applyAll (edits : List Edit) (buffer : ByteArray) :
    (applyAll edits buffer).size = buffer.size := by
  induction edits generalizing buffer with
  | nil => rfl
  | cons e rest ih => exact (ih _).trans (size_apply e buffer)

end Edit

/-- The page after `edits`, in order. -/
def Page.edit (edits : List Edit) (page : Page) : Page :=
  ⟨Edit.applyAll edits page.bytes, (Edit.size_applyAll edits page.bytes).trans page.size_bytes⟩

theorem Page.edit_fill (b : UInt8) (page : Page) : page.edit [.fill b] = .fill b :=
  Page.ext fun i hi => by
    rw [getElem_fill, getElem_eq]
    exact Array.getElem_replicate ..

end PageCache
