import Mathlib.Data.List.Nodup
import PageCache.Proofs.Shard.FlushAll
import PageCache.Proofs.Store.FileBytes
import PageCache.Proofs.Store.Pagewise
import PageCache.Proofs.Store.Readable

/-!
# Page files of any length

A page file may have been cut or written by somebody else, so it may end anywhere, also inside of a
page. Whatever its bytes are, a page it does not end inside of can be read, a page that was written
can be read back, and a write changes nothing else, but for the zeros it may add before the page.

* `FileStore.Reads`, `FileStore.Refuses`: what a read of a page comes to.
* `FileStore.Writes`: all that a write of a page does.
* `FileStore.writeAll_eq_of_writesOf`: only the writes of one page need to stay in their order.
* `FileStore.soundOn_any_file`: all this, for the file of any bytes.
-/

namespace PageCache

namespace Image

/-- An image of bytes is as long as they are. -/
theorem size_ofBytes (bytes : ByteArray) : (ofBytes bytes).size = bytes.size :=
  rfl

/-- An image of bytes has these bytes. -/
theorem bytes_ofBytes (bytes : ByteArray) : (ofBytes bytes).bytes = bytes.data.toList := by
  apply List.ext_getElem?
  intro i
  -- byte by byte, within the file and beyond it
  rw [getElem?_bytes, size_ofBytes]
  split
  · next hi =>
    rw [byte_ofBytes bytes i hi, ByteArray.getElem_eq_getElem_data, Array.getElem?_toList]
    exact (Array.getElem?_eq_getElem hi).symm
  · next hi => exact (List.getElem?_eq_none (Nat.not_lt.mp hi)).symm

end Image

namespace FileStore

open FileBytes

variable {f g : FileStore} {p q : PageId}

/-! ## Reads -/

/-- A read of page `p` gives `bytes`, whatever was in the buffer, and leaves the file as it is. -/
def Reads (f : FileStore) (p : PageId) (bytes : List UInt8) : Prop :=
  ∀ buffer, (f.read p buffer).result = .ok () ∧ (f.read p buffer).buffer.toList = bytes ∧
    (f.read p buffer).store = f

/-- A read of page `p` fails for want of bytes, and leaves the file as it is. -/
def Refuses (f : FileStore) (p : PageId) : Prop :=
  ∀ buffer, (f.read p buffer).result = .error .shortRead ∧ (f.read p buffer).store = f

/-- A page can be read if the file does not end inside of it, and then it reads as its block. -/
theorem reads_iff {bytes : List UInt8} :
    f.Reads p bytes ↔
      (f.image.size ≤ p.offset ∨ p.offset + pageSize ≤ f.image.size) ∧
        (f.image.block p.val).toList = bytes := by
  have hbuffer (buffer : Page) (h : (f.read p buffer).result = .ok ()) :
      (f.read p buffer).buffer = f.image.block p.val :=
    Medium.buffer_read (m := .file f) h
  constructor
  · intro h
    -- what any buffer shows, one of zeros does
    obtain ⟨hresult, hbytes, -⟩ := h .zero
    exact ⟨(f.result_read_iff p .zero).mp hresult, hbuffer _ hresult ▸ hbytes⟩
  · rintro ⟨hends, hbytes⟩ buffer
    have hresult := (f.result_read_iff p buffer).mpr hends
    exact ⟨hresult, hbuffer _ hresult ▸ hbytes, f.store_read p buffer⟩

/-- A page past the end reads as zeros. -/
theorem reads_zeros (h : f.image.size ≤ p.offset) :
    f.Reads p (List.replicate pageSize 0) :=
  reads_iff.mpr ⟨.inl h, by rw [Image.block_of_size_le _ h, Page.toList_zero]⟩

/-- A page that is all there reads as its piece of the file. -/
theorem reads_whole (h : p.offset + pageSize ≤ f.image.size) :
    f.Reads p ((f.image.bytes.drop p.offset).take pageSize) :=
  reads_iff.mpr ⟨.inr h, f.toList_block p h⟩

/-- A page that the file ends inside of cannot be read. -/
theorem refuses_of_end_inside (hstart : p.offset < f.image.size)
    (hend : f.image.size < p.offset + pageSize) : f.Refuses p := by
  intro buffer
  refine ⟨?_, f.store_read p buffer⟩
  rw [read, if_neg (Nat.not_le.mpr hstart), if_neg (Nat.not_le.mpr hend)]

/-! ## Writes -/

/-- `g` is the file after page `p` was written to `f`. -/
structure Writes (f : FileStore) (p : PageId) (page : Page) (g : FileStore) : Prop where
  /-- A file that ends before the page is set to the page's end first, any other is not. -/
  bytes : g.image.bytes = writePage p page.toList f.image.bytes
  readBack : g.Reads p page.toList
  length : g.image.bytes.length = max f.image.bytes.length (p.offset + pageSize)
  outside : ∀ i < f.image.bytes.length, (i < p.offset ∨ p.offset + pageSize ≤ i) →
    g.image.bytes[i]? = f.image.bytes[i]?
  /-- Between the old end and the page there are zeros. -/
  between : ∀ i < p.offset, f.image.bytes.length ≤ i → g.image.bytes[i]? = some 0
  /-- Every other page that could be read is read as before. -/
  others : ∀ q ≠ p, ∀ bytes, f.Reads q bytes → g.Reads q bytes

/-- A write makes the file as long as to the end of the page, if it was shorter. -/
theorem length_write (f : FileStore) (p : PageId) (page : Page) :
    (f.write p page).image.bytes.length =
      max f.image.bytes.length (p.offset + pageSize) := by
  rw [Image.length_bytes, Image.length_bytes]
  show max f.image.size ((p.val + 1) * pageSize) = _
  rw [Nat.succ_mul, PageId.offset]

/-- A byte outside the page is what it was, and zero where the file had none. -/
theorem getElem?_bytes_write (f : FileStore) (p : PageId) (page : Page) {i : Nat}
    (hi : i < (f.write p page).image.bytes.length)
    (houtside : i < p.offset ∨ p.offset + pageSize ≤ i) :
    (f.write p page).image.bytes[i]? = some (f.image.bytes[i]?.getD 0) := by
  have houtside : i < p.val * pageSize ∨ (p.val + 1) * pageSize ≤ i := by
    rwa [Nat.succ_mul]
  rw [Image.getD_getElem?_bytes, Image.getElem?_bytes, if_pos (Image.length_bytes _ ▸ hi)]
  exact congrArg some (Image.byte_writeBlock_of_outside _ _ houtside)

/-- A write does all of this. -/
theorem writes_write (f : FileStore) (p : PageId) (page : Page) :
    f.Writes p page (f.write p page) where
  bytes := f.bytes_write p page
  readBack := by
    refine reads_iff.mpr ⟨.inr ?_, ?_⟩
    · rw [← Image.length_bytes, length_write]
      exact Nat.le_max_right ..
    · show ((f.image.writeBlock p.val page).block p.val).toList = _
      rw [Image.block_writeBlock, if_pos rfl]
  length := length_write f p page
  outside i hi houtside := by
    have hnow : i < (f.write p page).image.bytes.length := by
      rw [length_write]
      exact Nat.lt_of_lt_of_le hi (Nat.le_max_left ..)
    rw [getElem?_bytes_write f p page hnow houtside, List.getElem?_eq_getElem hi,
      Option.getD_some]
  between i hi hend := by
    have hnow : i < (f.write p page).image.bytes.length := by
      rw [length_write]
      omega
    rw [getElem?_bytes_write f p page hnow (.inl hi), List.getElem?_eq_none hend,
      Option.getD_none]
  others q hq bytes h := by
    obtain ⟨hends, hbytes⟩ := reads_iff.mp h
    refine reads_iff.mpr ⟨whole_or_past_write hends p page, ?_⟩
    show ((f.image.writeBlock p.val page).block q.val).toList = bytes
    rw [Image.block_writeBlock, if_neg fun h => hq (PageId.ext h.symm), hbytes]

/-! ## Writes in any order -/

/-- The file after `writes` in turn. -/
def writeAll (f : FileStore) (writes : List (PageId × Page)) : FileStore :=
  writes.foldl (fun f w => f.write w.1 w.2) f

/-- Writes of different pages may be made in either order. -/
theorem write_comm (f : FileStore) (hpq : p ≠ q) (page page' : Page) :
    (f.write p page).write q page' = (f.write q page').write p page :=
  Medium.file.inj (Medium.write_comm (.file f) hpq page page')

/-- A write may be put off until pages other than its own are written. -/
theorem writeAll_write (f : FileStore) (page : Page) {writes : List (PageId × Page)}
    (hwrites : ∀ w ∈ writes, w.1 ≠ p) :
    (f.write p page).writeAll writes = (f.writeAll writes).write p page := by
  induction writes generalizing f with
  | nil => rfl
  | cons w writes ih =>
    show ((f.write p page).write w.1 w.2).writeAll writes = _
    rw [write_comm f (hwrites w List.mem_cons_self).symm]
    exact ih _ fun w hw => hwrites w (List.mem_cons_of_mem _ hw)

/-- Later writes find what the earlier ones left. -/
theorem writeAll_append (f : FileStore) (writes writes' : List (PageId × Page)) :
    f.writeAll (writes ++ writes') = (f.writeAll writes).writeAll writes' :=
  List.foldl_append

/-- Writes of different pages may be made in any order. -/
theorem writeAll_eq_of_perm {writes writes' : List (PageId × Page)}
    (hnodup : (writes.map Prod.fst).Nodup) (hperm : writes.Perm writes') :
    f.writeAll writes = f.writeAll writes' := by
  refine hperm.foldl_eq' (fun w hw v hv f => ?_) f
  -- two writes of one page are the same write
  by_cases hpage : w.1 = v.1
  · rw [List.inj_on_of_nodup_map hnodup hw hv hpage]
  · exact write_comm f hpage w.2 v.2

/-- The writes of page `p`, in their order. -/
def writesOf (p : PageId) (writes : List (PageId × Page)) : List (PageId × Page) :=
  writes.filter (·.1 = p)

theorem writesOf_cons_self (w : PageId × Page) (writes : List (PageId × Page)) :
    writesOf w.1 (w :: writes) = w :: writesOf w.1 writes :=
  List.filter_cons_of_pos (decide_eq_true rfl)

theorem writesOf_cons_of_ne {w : PageId × Page} (hw : w.1 ≠ p) (writes : List (PageId × Page)) :
    writesOf p (w :: writes) = writesOf p writes :=
  List.filter_cons_of_neg fun h => hw (of_decide_eq_true h)

/-- The writes of a page in two parts are those in the whole. -/
theorem writesOf_append (writes writes' : List (PageId × Page)) :
    writesOf p (writes ++ writes') = writesOf p writes ++ writesOf p writes' :=
  List.filter_append ..

/-- Only the writes of one page need to stay in their order. -/
theorem writeAll_eq_of_writesOf {writes writes' : List (PageId × Page)}
    (h : ∀ p, writesOf p writes = writesOf p writes') :
    f.writeAll writes = f.writeAll writes' := by
  induction writes generalizing f writes' with
  | nil =>
    cases writes' with
    | nil => rfl
    | cons w writes' => exact absurd ((h w.1).trans (writesOf_cons_self ..)) (by simp [writesOf])
  | cons w writes ih =>
    -- the first write of the page comes after writes of other pages only
    obtain ⟨before, after, rfl, hbefore, -, hafter⟩ :=
      List.filter_eq_cons_iff.mp ((h w.1).symm.trans (writesOf_cons_self ..))
    have hothers : ∀ v ∈ before, v.1 ≠ w.1 := fun v hv heq => hbefore v hv (decide_eq_true heq)
    -- without that write the two lists still agree page by page
    have hrest (p : PageId) : writesOf p writes = writesOf p (before ++ after) := by
      by_cases hp : w.1 = p
      · subst hp
        have hnone : writesOf w.1 before = [] := List.filter_eq_nil_iff.mpr hbefore
        rw [writesOf_append, hnone, List.nil_append]
        exact hafter.symm
      · have hall := h p
        rwa [writesOf_cons_of_ne hp, writesOf_append, writesOf_cons_of_ne hp,
          ← writesOf_append] at hall
    calc f.writeAll (w :: writes) = (f.write w.1 w.2).writeAll (before ++ after) := ih hrest
      _ = ((f.writeAll before).write w.1 w.2).writeAll after := by
        rw [writeAll_append, writeAll_write f w.2 hothers]
      _ = f.writeAll (before ++ w :: after) := (writeAll_append f before (w :: after)).symm

/-! ## All of it -/

/-- `f` does on the bytes `file` what a page file should. -/
structure SoundOn (f : FileStore) (file : List UInt8) : Prop where
  past : ∀ p, file.length ≤ p.offset → f.Reads p (List.replicate pageSize 0)
  whole : ∀ p, p.offset + pageSize ≤ file.length →
    f.Reads p ((file.drop p.offset).take pageSize)
  /-- The file ends inside of the page. -/
  inside : ∀ p, p.offset < file.length → file.length < p.offset + pageSize → f.Refuses p
  writes : ∀ p page, f.Writes p page (f.write p page)
  /-- Pages may be written in any order. -/
  commute : ∀ writes writes' : List (PageId × Page), (writes.map Prod.fst).Nodup →
    writes.Perm writes' → f.writeAll writes = f.writeAll writes'
  /-- Pages may be written again and again, as long as the writes of one page stay in order. -/
  interleave : ∀ writes writes' : List (PageId × Page),
    (∀ p, writesOf p writes = writesOf p writes') → f.writeAll writes = f.writeAll writes'

/-- Any bytes are those of a file, and whatever file has them is sound on them. -/
theorem soundOn_any_file (file : List UInt8) :
    (∃ f : FileStore, f.image.bytes = file) ∧
      ∀ f : FileStore, f.image.bytes = file → f.SoundOn file := by
  refine ⟨⟨⟨.ofBytes ⟨file.toArray⟩, ∅⟩, Image.bytes_ofBytes _⟩, ?_⟩
  rintro f rfl
  have hlength := f.image.length_bytes
  exact {
    past := fun p h => reads_zeros (hlength ▸ h)
    whole := fun p h => reads_whole (hlength ▸ h)
    inside := fun p hstart hend => refuses_of_end_inside (hlength ▸ hstart) (hlength ▸ hend)
    writes := writes_write f
    commute := fun _ _ hnodup hperm => writeAll_eq_of_perm hnodup hperm
    interleave := fun _ _ h => writeAll_eq_of_writesOf h }

/-- Three bytes: page `0` cannot be read until it is written. -/
theorem soundOn_any_file_three_bytes :
    (Image.ofBytes ⟨#[1, 2, 3]⟩).bytes = [1, 2, 3] ∧
      SoundOn ⟨.ofBytes ⟨#[1, 2, 3]⟩, ∅⟩ [1, 2, 3] :=
  ⟨Image.bytes_ofBytes _, (soundOn_any_file [1, 2, 3]).2 _ (Image.bytes_ofBytes _)⟩

end FileStore

end PageCache
