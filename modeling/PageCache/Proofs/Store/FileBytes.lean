import PageCache.Proofs.Store.Lawful

/-!
# A page file as a vector of bytes

Behind a page file there is one vector of bytes, and all that is ever done to it is to set its
length, to write from an offset on and to read from an offset on. Here these are functions on lists
of bytes, pages are read and written by them (`FileBytes.readPage?`, `FileBytes.writePage`), and the
page file does just that to its bytes (`FileStore.bytes_write`, `FileStore.readPage?_bytes`).
-/

namespace PageCache

/-! ## Byte vectors -/

namespace FileBytes

/-- The file cut or extended to `n` bytes, with zeros where there was nothing. -/
def setLength (n : Nat) (file : List UInt8) : List UInt8 :=
  file.take n ++ List.replicate (n - file.length) 0

/-- The file with `data` written from offset `start` on. A start beyond the end leaves no hole. -/
def writeFrom (start : Nat) (data file : List UInt8) : List UInt8 :=
  setLength start file ++ data ++ file.drop (start + data.length)

/-- The `n` bytes from offset `start` on, if the file has them all. -/
def readFrom? (start n : Nat) (file : List UInt8) : Option (List UInt8) :=
  if start + n ≤ file.length then some ((file.drop start).take n) else none

/-- Read page `p`: zeros if it starts beyond the end, else all of its bytes or nothing. -/
def readPage? (p : PageId) (file : List UInt8) : Option (List UInt8) :=
  if file.length ≤ p.offset then some (List.replicate pageSize 0)
  else readFrom? p.offset pageSize file

/-- Write page `p`. A file that ends before the page is extended to the page's end first. -/
def writePage (p : PageId) (data file : List UInt8) : List UInt8 :=
  writeFrom p.offset data
    (if file.length ≤ p.offset then setLength (p.offset + pageSize) file else file)

theorem length_setLength (n : Nat) (file : List UInt8) : (setLength n file).length = n := by
  rw [setLength, List.length_append, List.length_take, List.length_replicate]
  omega

/-- Up to the length that was set are the bytes that were there, then zeros. -/
theorem getElem?_setLength (n : Nat) (file : List UInt8) (i : Nat) :
    (setLength n file)[i]? = if i < n then some (file[i]?.getD 0) else none := by
  rw [setLength, List.getElem?_append, List.length_take, List.getElem?_take,
    List.getElem?_replicate]
  by_cases hn : i < n
  · by_cases hlen : i < file.length
    · rw [if_pos (by omega), if_pos hn, if_pos hn, List.getElem?_eq_getElem hlen, Option.getD_some]
    · rw [if_neg (by omega), if_pos (by omega), if_pos hn,
        List.getElem?_eq_none (Nat.not_lt.mp hlen), Option.getD_none]
  · rw [if_neg (by omega), if_neg (by omega), if_neg hn]

/-- Before the data and past them a file is as it was, but for a gap, which is filled with zeros. -/
theorem getElem?_writeFrom (start : Nat) (data file : List UInt8) (i : Nat) :
    (writeFrom start data file)[i]? =
      if i < start then some (file[i]?.getD 0)
      else if i < start + data.length then data[i - start]?
      else file[i]? := by
  rw [writeFrom, List.getElem?_append, List.getElem?_append, List.length_append, length_setLength,
    getElem?_setLength, List.getElem?_drop]
  by_cases hstart : i < start
  · rw [if_pos (by omega), if_pos hstart, if_pos hstart, if_pos hstart]
  · by_cases hend : i < start + data.length
    · rw [if_pos hend, if_neg hstart, if_neg hstart, if_pos hend]
    · rw [if_neg hend, if_neg hstart, if_neg hend]
      exact congrArg (file[·]?) (by omega)

end FileBytes

/-! ## The page file -/

/-- The bytes of the page, first to last. -/
def Page.toList (page : Page) : List UInt8 :=
  page.bytes.data.toList

theorem Page.length_toList (page : Page) : page.toList.length = pageSize :=
  page.size_bytes

theorem Page.getElem?_toList (page : Page) (i : Nat) :
    page.toList[i]? = if h : i < pageSize then some page[i] else none := by
  have hlength := page.length_toList
  split
  · next h => exact List.getElem?_eq_getElem (l := page.toList) (by omega)
  · next h => exact List.getElem?_eq_none (by omega)

theorem Page.toList_zero : Page.zero.toList = List.replicate pageSize 0 := by
  apply List.ext_getElem?
  intro i
  rw [Page.getElem?_toList, List.getElem?_replicate]
  split
  · next h => rw [Page.getElem_zero]
  · rfl

/-- The bytes of the file, first to last. -/
def Image.bytes (m : Image) : List UInt8 :=
  List.ofFn fun i : Fin m.size => m.byte i

theorem Image.length_bytes (m : Image) : m.bytes.length = m.size :=
  List.length_ofFn

theorem Image.getElem?_bytes (m : Image) (i : Nat) :
    m.bytes[i]? = if i < m.size then some (m.byte i) else none := by
  rw [Image.bytes, List.getElem?_ofFn]
  split <;> rfl

/-- The bytes of a file show zeros beyond its end. -/
theorem Image.getD_getElem?_bytes (m : Image) (i : Nat) : m.bytes[i]?.getD 0 = m.byte i := by
  rw [Image.getElem?_bytes]
  split
  · rfl
  · next h => exact (m.tail i (Nat.not_lt.mp h)).symm

/-- A written block holds the page, and the rest of the file shows what it showed. -/
theorem Image.byte_writeBlock_of_lt (m : Image) (k j : Nat) (page : Page) (hj : j < pageSize) :
    (m.writeBlock k page).byte (k * pageSize + j) = page[j] := by
  rw [← Image.getElem_block _ k j hj]
  simp only [Image.block_writeBlock, if_true]

/-- Bytes outside the block that is written stay as they are. -/
theorem Image.byte_writeBlock_of_outside (m : Image) {k i : Nat} (page : Page)
    (h : i < k * pageSize ∨ (k + 1) * pageSize ≤ i) : (m.writeBlock k page).byte i = m.byte i := by
  rw [Image.byte_writeBlock, if_neg]
  rintro rfl
  have hle : i / pageSize * pageSize ≤ i := Nat.div_mul_le_self i pageSize
  have hlt : i < (i / pageSize + 1) * pageSize := lt_block_end i
  omega

namespace FileStore

open FileBytes

variable (f : FileStore) (p : PageId)

/-- A page is written as bytes of the file, and the file grows as it must. -/
theorem bytes_write (page : Page) :
    (f.write p page).image.bytes = writePage p page.toList f.image.bytes := by
  have hnext : (p.val + 1) * pageSize = p.offset + pageSize := Nat.succ_mul ..
  apply List.ext_getElem?
  intro i
  rw [writePage, getElem?_writeFrom, Page.length_toList, Image.length_bytes, Image.getElem?_bytes]
  show (if i < max f.image.size ((p.val + 1) * pageSize) then
    some ((f.image.writeBlock p.val page).byte i) else none) = _
  rw [hnext]
  by_cases hbefore : i < p.offset
  · -- before the page
    rw [if_pos (by omega), if_pos hbefore, Image.byte_writeBlock_of_outside _ _ (.inl hbefore)]
    split
    · rw [getElem?_setLength, if_pos (by omega), Option.getD_some, Image.getD_getElem?_bytes]
    · rw [Image.getD_getElem?_bytes]
  · by_cases hpage : i < p.offset + pageSize
    · -- in the page
      obtain ⟨j, rfl⟩ : ∃ j, i = p.offset + j := Nat.exists_eq_add_of_le (Nat.not_lt.mp hbefore)
      have hj : j < pageSize := by omega
      rw [if_pos (by omega), if_neg hbefore, if_pos hpage, Nat.add_sub_cancel_left,
        Page.getElem?_toList, dif_pos hj, PageId.offset, Image.byte_writeBlock_of_lt _ _ _ _ hj]
    · -- behind the page, where there is something only if the file was longer before
      rw [if_neg hbefore, if_neg hpage, Image.byte_writeBlock_of_outside _ _ (.inr (by omega))]
      by_cases hend : f.image.size ≤ p.offset
      · rw [if_neg (by omega), if_pos hend, getElem?_setLength, if_neg hpage]
      · rw [if_neg hend, Image.getElem?_bytes]
        exact if_congr (by omega) rfl rfl

/-- The bytes a page file has of a page it reaches to the end of. -/
theorem toList_block (h : p.offset + pageSize ≤ f.image.size) :
    (f.image.block p.val).toList = (f.image.bytes.drop p.offset).take pageSize := by
  apply List.ext_getElem?
  intro j
  rw [Page.getElem?_toList, List.getElem?_take, List.getElem?_drop, Image.getElem?_bytes]
  split
  · next hj => rw [if_pos (by omega), Image.getElem_block, PageId.offset]
  · rfl

/-- A page is read from the bytes of the file. -/
theorem readPage?_bytes (buffer : Page) :
    readPage? p f.image.bytes =
      match (f.read p buffer).result with
      | .ok () => some (f.read p buffer).buffer.toList
      | .error _ => none := by
  rw [readPage?, readFrom?, Image.length_bytes, FileStore.read]
  split
  · rw [Page.toList_zero]
  · split
    · next hwhole => rw [f.toList_block p hwhole]
    · rfl

end FileStore

end PageCache
