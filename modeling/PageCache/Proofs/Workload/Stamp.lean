import Mathlib.Logic.Function.Iterate
import PageCache.Proofs.Store.FileBytes
import PageCache.Workload.Stamp

/-!
# What stamps leave on a page

A stamp is put at the start of a page and leaves the rest alone (`Page.toList_putFront`). So what a
page shows after it was stamped any number of times, all zeros before the first, can be told byte by
byte: its id, how often it was stamped, and zeros (`Page.toList_stamps`).
-/

namespace PageCache

/-! ## Writing at the start of a page -/

namespace Edit

/-- Bytes that fit take the place of those that were there, and the rest stays. -/
theorem toList_putBytes (buffer : ByteArray) (start : Nat) (bytes : List UInt8)
    (hroom : start + bytes.length ≤ buffer.size) :
    (putBytes buffer start bytes).data.toList =
      buffer.data.toList.take start ++ bytes ++ buffer.data.toList.drop (start + bytes.length) := by
  -- byte by byte, each at the place after the last
  induction bytes generalizing buffer start with
  | nil => simp [putBytes]
  | cons b rest ih =>
    rw [List.length_cons] at hroom
    have hstart : start < buffer.size := by omega
    have hsize : (buffer.set start b hstart).size = buffer.size := Array.size_set _
    have hset : (buffer.set start b hstart).data.toList = buffer.data.toList.set start b :=
      Array.toList_set buffer.data start b hstart
    have hlength : start < buffer.data.toList.length := hstart
    rw [putBytes, dif_pos hstart, ih _ _ (by omega), hset]
    -- the byte that was set is the last one before the rest
    rw [List.take_succ_eq_append_getElem (by rw [List.length_set]; exact hlength),
      List.getElem_set_self, List.take_set_of_le (Nat.le_refl _),
      List.drop_set_of_lt (by omega), List.length_cons]
    simp [Nat.add_assoc, Nat.add_comm 1]

end Edit

namespace Page

/-- A page is told by the list of its bytes. -/
theorem toList_injective {page page' : Page} (h : page.toList = page'.toList) : page = page' := by
  apply Page.ext
  intro i hi
  -- the byte at a place is that of the list
  have hbyte := congrArg (·[i]?) h
  simp only [getElem?_toList, dif_pos hi] at hbyte
  exact Option.some.inj hbyte

/-- Bytes that are put at the start take the place of as many. -/
theorem toList_putFront (page : Page) {bytes : List UInt8} (hroom : bytes.length ≤ pageSize) :
    (page.edit [.put 0 bytes]).toList = bytes ++ page.toList.drop bytes.length := by
  have hsize : 0 + bytes.length ≤ page.bytes.size := by
    rw [page.size_bytes]
    omega
  have hput := Edit.toList_putBytes page.bytes 0 bytes hsize
  rw [List.take_zero, List.nil_append, Nat.zero_add] at hput
  exact hput

/-- A slice that ends within the page is a piece of the list of its bytes. -/
theorem slice_eq (page : Page) {start count : Nat} (hroom : start + count ≤ pageSize) :
    page.slice start count = (page.toList.drop start).take count := by
  have hlength := page.length_toList
  apply List.ext_getElem?
  intro i
  rw [slice, List.getElem?_map, List.getElem?_take, List.getElem?_drop, getElem?_toList]
  by_cases hi : i < count
  · have hin : start + i < pageSize := by omega
    -- within the slice, and so within the page
    rw [List.getElem?_range hi, Option.map_some, dif_pos hin, if_pos hi, dif_pos hin]
  · rw [List.getElem?_eq_none (by simpa using hi), if_neg hi]
    rfl

/-! ## Stamps -/

variable {p : PageId} {n : Nat} {page : Page}

/-- Twelve bytes of every page are for the stamp. -/
theorem stamp_fits (p : PageId) (n : Nat) :
    (LittleEndian.encode 4 p.val ++ LittleEndian.encode 8 n).length ≤ pageSize := by
  rw [List.length_append, LittleEndian.length_encode, LittleEndian.length_encode, pageSize_eq]
  omega

/-- A stamp is the id in four bytes and the count in eight; the rest of the page stays. -/
theorem toList_stamp (p : PageId) (page : Page) :
    (page.stamp p).toList = LittleEndian.encode 4 p.val ++
      (LittleEndian.encode 8 (page.stampCount + 1) ++ page.toList.drop 12) := by
  rw [stamp, toList_putFront _ (stamp_fits p _), List.length_append, LittleEndian.length_encode,
    LittleEndian.length_encode, List.append_assoc]

/-- A page bears the stamp it was given last, whatever it was stamped for before. -/
theorem stampedFor_stamp (p : PageId) (page : Page) : (page.stamp p).stampedFor = p.val := by
  have hfits : 0 + 4 ≤ pageSize := by
    rw [pageSize_eq]
    omega
  rw [stampedFor, slice_eq _ hfits, toList_stamp, List.drop_zero,
    List.take_left' (LittleEndian.length_encode 4 p.val)]
  exact LittleEndian.decode_encode p.isLt

/-- The count goes up by one, as long as eight bytes can tell it. -/
theorem stampCount_stamp (p : PageId) (hn : page.stampCount + 1 < UInt64.size) :
    (page.stamp p).stampCount = page.stampCount + 1 := by
  have hfits : 4 + 8 ≤ pageSize := by
    rw [pageSize_eq]
    omega
  rw [stampCount, slice_eq _ hfits, toList_stamp,
    List.drop_left' (LittleEndian.length_encode 4 p.val),
    List.take_left' (LittleEndian.length_encode 8 (page.stampCount + 1))]
  exact LittleEndian.decode_encode hn

/-- A page of zeros was never stamped. -/
theorem stampCount_zero : zero.stampCount = 0 := by
  have hfits : 4 + 8 ≤ pageSize := by
    rw [pageSize_eq]
    omega
  rw [stampCount, slice_eq _ hfits, toList_zero, List.drop_replicate, List.take_replicate,
    Nat.min_eq_left (by omega)]
  rfl

/-- The page that was stamped for `p` so many times, all zeros before. -/
def stamps (p : PageId) (n : Nat) : Page :=
  (stamp p)^[n] zero

/-- Without a stamp the page is all zeros. -/
theorem stamps_zero (p : PageId) : stamps p 0 = zero :=
  rfl

/-- One stamp more is put on the page as it was. -/
theorem stamps_succ (p : PageId) (n : Nat) : stamps p (n + 1) = (stamps p n).stamp p :=
  Function.iterate_succ_apply' ..

/-- The page tells how often it was stamped. -/
theorem stampCount_stamps (p : PageId) (hn : n < UInt64.size) : (stamps p n).stampCount = n := by
  induction n with
  | zero => exact stampCount_zero
  | succ n ih =>
    -- the count was `n`, and goes up by one
    have hbefore := ih (Nat.lt_of_succ_lt hn)
    rw [stamps_succ, stampCount_stamp p (by rw [hbefore]; exact hn), hbefore]

/-- A page that was stamped is not all zeros. -/
theorem stamps_ne_zero (p : PageId) (hpos : n ≠ 0) (hn : n < UInt64.size) : stamps p n ≠ zero := by
  intro hzero
  have hcount := stampCount_stamps p hn
  rw [hzero, stampCount_zero] at hcount
  exact hpos hcount.symm

/-- A page that was stamped tells whose it is. -/
theorem stampedFor_stamps (p : PageId) (hn : n ≠ 0) : (stamps p n).stampedFor = p.val := by
  obtain ⟨m, rfl⟩ := Nat.exists_eq_succ_of_ne_zero hn
  rw [stamps_succ]
  exact stampedFor_stamp p _

/-- Beyond the stamp there are zeros. -/
theorem drop_toList_stamps (p : PageId) (n : Nat) :
    (stamps p n).toList.drop 12 = List.replicate (pageSize - 12) 0 := by
  induction n with
  | zero => rw [stamps_zero, toList_zero, List.drop_replicate]
  | succ n ih =>
    have hlength : (LittleEndian.encode 4 p.val ++
        LittleEndian.encode 8 ((stamps p n).stampCount + 1)).length = 12 := by
      rw [List.length_append, LittleEndian.length_encode, LittleEndian.length_encode]
    rw [stamps_succ, toList_stamp, ← List.append_assoc, List.drop_left' hlength, ih]

/-- A page that was stamped shows its id, how often it was stamped, and zeros. -/
theorem toList_stamps (p : PageId) (hpos : n ≠ 0) (hn : n < UInt64.size) :
    (stamps p n).toList = LittleEndian.encode 4 p.val ++
      (LittleEndian.encode 8 n ++ List.replicate (pageSize - 12) 0) := by
  obtain ⟨m, rfl⟩ := Nat.exists_eq_succ_of_ne_zero hpos
  rw [Nat.succ_eq_add_one, stamps_succ, toList_stamp, stampCount_stamps p (Nat.lt_of_succ_lt hn),
    drop_toList_stamps]

/-- The page is as a page that is stamped in one go. -/
theorem stamps_eq (p : PageId) (hpos : n ≠ 0) (hn : n < UInt64.size) :
    stamps p n = stamped p n := by
  apply toList_injective
  rw [toList_stamps p hpos hn, stamped, toList_putFront _ (stamp_fits p n), toList_zero,
    List.drop_replicate, List.length_append, LittleEndian.length_encode,
    LittleEndian.length_encode, List.append_assoc]

end Page

end PageCache
