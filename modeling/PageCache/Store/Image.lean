import PageCache.Page.Bytes

/-!
# The contents of a file

A file image is a length and the bytes before it. Files can be long and nearly empty, so the bytes
are kept in blocks of a page each, and a block that is missing holds zeros. What an image means is
`Image.byte`: two images are the same file when they agree in `size` and in every `byte`.

* `byte_resize`: cutting or extending keeps what stays and adds zeros.
* `byte_writeBlock`: a block write changes that block and nothing else.
* `byte_ofBytes`: the file of a buffer holds the bytes of the buffer.
-/

namespace PageCache

/-- Block `k` of the file whose kept blocks are `blocks`. -/
def blockAt (blocks : Std.ExtTreeMap Nat Page) (k : Nat) : Page :=
  blocks[k]?.getD .zero

/-- Byte `i` of the file whose kept blocks are `blocks`. -/
def byteAt (blocks : Std.ExtTreeMap Nat Page) (i : Nat) : UInt8 :=
  getElem (blockAt blocks (i / pageSize)) (i % pageSize) (Nat.mod_lt _ pageSize_pos)

structure Image where
  size : Nat
  blocks : Std.ExtTreeMap Nat Page
  /-- Nothing is kept beyond the end, so that extending a file shows zeros. -/
  tail : ∀ i, size ≤ i → byteAt blocks i = 0

namespace Image

def block (m : Image) (k : Nat) : Page :=
  blockAt m.blocks k

def byte (m : Image) (i : Nat) : UInt8 :=
  byteAt m.blocks i

def empty : Image :=
  ⟨0, ∅, fun i _ => by simp [byteAt, blockAt]⟩

/-! ## Cutting and extending -/

/-- What is left of block `k` in a file of `n` bytes. -/
def cutBlock (n k : Nat) (page : Page) : Option Page :=
  if (k + 1) * pageSize ≤ n then some page
  else if n ≤ k * pageSize then none
  else some (.ofFn fun i => if k * pageSize + i.val < n then page[i.val] else 0)

/-- A block that is cut at byte `n` has zeros from there on. -/
theorem getElem_cutBlock (n k : Nat) (page : Page) (j : Nat) (hj : j < pageSize) :
    ((cutBlock n k page).getD .zero)[j] = if k * pageSize + j < n then page[j] else 0 := by
  have hnext : (k + 1) * pageSize = k * pageSize + pageSize := Nat.succ_mul ..
  unfold cutBlock
  split
  · simp only [Option.getD_some, show k * pageSize + j < n by omega, if_true]
  · split
    · simp only [Option.getD_none, Page.getElem_zero, show ¬ k * pageSize + j < n by omega,
        if_false]
    · simp only [Option.getD_some, Page.getElem_ofFn]

/-- Blocks that are cut at byte `n` have zeros from there on. -/
theorem byteAt_cut (blocks : Std.ExtTreeMap Nat Page) (n i : Nat) :
    byteAt (blocks.filterMap (cutBlock n)) i = if i < n then byteAt blocks i else 0 := by
  unfold byteAt blockAt
  rw [Std.ExtTreeMap.getElem?_filterMap']
  cases blocks[i / pageSize]? with
  | none => simp
  | some page =>
    simp only [Option.bind_some, Option.getD_some]
    rw [getElem_cutBlock, Nat.div_add_mod']

/-- The file cut or extended to `n` bytes. -/
def resize (m : Image) (n : Nat) : Image where
  size := n
  blocks := m.blocks.filterMap (cutBlock n)
  tail i hi := by rw [byteAt_cut, if_neg (by omega)]

@[simp]
theorem size_resize (m : Image) (n : Nat) : (m.resize n).size = n :=
  rfl

theorem byte_resize (m : Image) (n i : Nat) :
    (m.resize n).byte i = if i < n then m.byte i else 0 :=
  byteAt_cut ..

/-! ## Writing a block -/

theorem byteAt_insert (blocks : Std.ExtTreeMap Nat Page) (k : Nat) (page : Page) (i : Nat) :
    byteAt (blocks.insert k page) i =
      if i / pageSize = k then getElem page (i % pageSize) (Nat.mod_lt _ pageSize_pos)
      else byteAt blocks i := by
  unfold byteAt blockAt
  rw [Std.ExtTreeMap.getElem?_insert]
  by_cases h : i / pageSize = k
  · simp [h]
  · simp [h, Ne.symm h]

theorem lt_block_end (i : Nat) : i < (i / pageSize + 1) * pageSize := by
  rw [Nat.mul_comm]
  exact Nat.lt_mul_div_succ i pageSize_pos

/-- Block `k` overwritten; a file that ended before the block's end now ends there. -/
def writeBlock (m : Image) (k : Nat) (page : Page) : Image where
  size := max m.size ((k + 1) * pageSize)
  blocks := m.blocks.insert k page
  tail i hi := by
    have hk : i / pageSize ≠ k := by
      rintro rfl
      exact absurd (lt_block_end i) (by omega)
    rw [byteAt_insert, if_neg hk, m.tail i (by omega)]

@[simp]
theorem size_writeBlock (m : Image) (k : Nat) (page : Page) :
    (m.writeBlock k page).size = max m.size ((k + 1) * pageSize) :=
  rfl

theorem byte_writeBlock (m : Image) (k : Nat) (page : Page) (i : Nat) :
    (m.writeBlock k page).byte i =
      if i / pageSize = k then getElem page (i % pageSize) (Nat.mod_lt _ pageSize_pos)
      else m.byte i :=
  byteAt_insert ..

/-! ## Images of byte buffers -/

/-- Block `k` of `bytes`, filled up with zeros. -/
def blockOf (bytes : ByteArray) (k : Nat) : Page :=
  .ofFn fun i => if h : k * pageSize + i.val < bytes.size then bytes[k * pageSize + i.val] else 0

/-- The file of `n` whole blocks of `bytes`. -/
def ofBlocks (bytes : ByteArray) : (n : Nat) → Image
  | 0 => empty
  | n + 1 => (ofBlocks bytes n).writeBlock n (blockOf bytes n)

/-- The file that holds exactly `bytes`. -/
def ofBytes (bytes : ByteArray) : Image :=
  (ofBlocks bytes (bytes.size / pageSize + 1)).resize bytes.size

/-- In the first `n` blocks of some bytes are the bytes. -/
theorem byte_ofBlocks (bytes : ByteArray) (n i : Nat) (h : i < bytes.size) (hn : i / pageSize < n) :
    (ofBlocks bytes n).byte i = bytes[i] := by
  -- over the blocks that are written; the byte is in the last of them or in an earlier one
  induction n with
  | zero => exact absurd hn (Nat.not_lt_zero _)
  | succ n ih =>
    rw [ofBlocks, byte_writeBlock]
    split
    · next hk =>
      subst hk
      simp only [blockOf, Page.getElem_ofFn, Nat.div_add_mod', h, dif_pos]
    · next hk => exact ih (Nat.lt_of_le_of_ne (Nat.le_of_lt_succ hn) hk)

/-- The file made of some bytes has these bytes. -/
theorem byte_ofBytes (bytes : ByteArray) (i : Nat) (h : i < bytes.size) :
    (ofBytes bytes).byte i = bytes[i] := by
  rw [ofBytes, byte_resize, if_pos h]
  exact byte_ofBlocks bytes _ i h (Nat.lt_succ_of_le (Nat.div_le_div_right (Nat.le_of_lt h)))

end Image

end PageCache
