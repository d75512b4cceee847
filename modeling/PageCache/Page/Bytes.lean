import PageCache.Page.Id

/-!
# Page bytes

A page is a block of exactly `pageSize` bytes. It is read through `page[i]` and built by `ofFn`
or `set`; two pages with the same bytes are equal (`Page.ext`), so nothing after this module
looks at how the bytes are packed.
-/

namespace PageCache

/-- Buffers are compared as the core library compares them; other libraries bring a test of their
own. -/
instance decidableEqBuffer : DecidableEq ByteArray :=
  ByteArray.instDecidableEq

structure Page where
  bytes : ByteArray
  size_bytes : bytes.size = pageSize
deriving DecidableEq

namespace Page

instance : GetElem Page Nat UInt8 fun _ i => i < pageSize where
  getElem page i h := page.bytes.get i (Nat.lt_of_lt_of_eq h page.size_bytes.symm)

/-- The `n` bytes `f` lists, packed. -/
def pack {n : Nat} (f : Fin n → UInt8) : ByteArray :=
  ⟨Array.ofFn f⟩

theorem size_pack {n : Nat} (f : Fin n → UInt8) : (pack f).size = n :=
  Array.size_ofFn

theorem getElem_pack {n : Nat} (f : Fin n → UInt8) (i : Nat) (h : i < n) :
    getElem (pack f) i (Nat.lt_of_lt_of_eq h (size_pack f).symm) = f ⟨i, h⟩ :=
  Array.getElem_ofFn _

/-- The page whose byte `i` is `f i`. -/
def ofFn (f : Fin pageSize → UInt8) : Page :=
  ⟨pack f, size_pack f⟩

/-- `bytes` as a page, if there are exactly enough of them. -/
def ofBytes? (bytes : ByteArray) : Option Page :=
  if h : bytes.size = pageSize then some ⟨bytes, h⟩ else none

def set (page : Page) (i : Nat) (b : UInt8) (h : i < pageSize) : Page :=
  ⟨page.bytes.set i b (Nat.lt_of_lt_of_eq h page.size_bytes.symm),
    (Array.size_set _).trans page.size_bytes⟩

/-- Every byte is `b`. -/
def fill (b : UInt8) : Page :=
  ofFn fun _ => b

/-- The page of zeros: what a page shows before anything is written to it. -/
def zero : Page :=
  fill 0

/-! ## Laws -/

theorem getElem_eq (page : Page) (i : Nat) (h : i < pageSize) :
    page[i] = getElem page.bytes.data i (Nat.lt_of_lt_of_eq h page.size_bytes.symm) :=
  rfl

/-- Pages with the same bytes are the same. -/
@[ext]
theorem ext {p q : Page} (h : ∀ (i : Nat) (hi : i < pageSize), p[i] = q[i]) : p = q := by
  have hp : p.bytes.data.size = pageSize := p.size_bytes
  have hq : q.bytes.data.size = pageSize := q.size_bytes
  have hbytes : p.bytes = q.bytes := ByteArray.ext <| Array.ext (hp.trans hq.symm) fun i hi _ => by
    have hpq := h i (Nat.lt_of_lt_of_eq hi hp)
    rwa [getElem_eq, getElem_eq] at hpq
  cases p; cases q; cases hbytes; rfl

@[simp]
theorem getElem_ofFn (f : Fin pageSize → UInt8) (i : Nat) (h : i < pageSize) :
    (ofFn f)[i] = f ⟨i, h⟩ :=
  getElem_pack f i h

@[simp]
theorem getElem_fill (b : UInt8) (i : Nat) (h : i < pageSize) : (fill b)[i] = b :=
  getElem_ofFn _ i h

@[simp]
theorem getElem_zero (i : Nat) (h : i < pageSize) : zero[i] = 0 :=
  getElem_fill 0 i h

/-- Different bytes fill different pages. -/
theorem fill_injective {b b' : UInt8} (h : fill b = fill b') : b = b' := by
  have hpos := pageSize_pos
  calc b = (fill b)[0] := (getElem_fill b 0 hpos).symm
    _ = (fill b')[0] := by rw [h]
    _ = b' := getElem_fill b' 0 hpos

end Page

end PageCache
