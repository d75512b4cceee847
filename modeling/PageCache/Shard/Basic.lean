import PageCache.Outcome
import PageCache.Page.Bytes
import PageCache.Recency.Basic
import PageCache.Shard.Stripe
import PageCache.Store.Basic

/-!
# Shards

A shard is a fixed array of frames with the records that say which page lies in which frame, which
frames are free, and which of the others may be evicted. It holds no disk: operations that need
one work on a `Backed` shard, which pairs the two.
-/

namespace PageCache

/-- A page-sized slot, with what is known of the page in it. -/
structure Frame where
  bytes : Page
  holds : Option PageId
  pins : Nat
  /-- The bytes may differ from what the disk has. -/
  dirty : Bool
deriving DecidableEq

namespace Frame

def blank : Frame :=
  ⟨.zero, none, 0, false⟩

/-- The frame with its page forgotten. The bytes stay until the next page overwrites them. -/
def released (f : Frame) : Frame :=
  ⟨f.bytes, none, 0, false⟩

/-- A frame that has just received page `p`, pinned once. -/
def holding (p : PageId) (bytes : Page) : Frame :=
  ⟨bytes, some p, 1, false⟩

/-- The most pins a page can have at a time. -/
def maxPins : Nat :=
  UInt32.size - 1

end Frame

structure Shard (size : Nat) where
  frames : Vector Frame size
  /-- Where each resident page lies. -/
  table : Std.ExtTreeMap PageId (Fin size)
  /-- Frames without a page; the first is used next. -/
  free : List (Fin size)
  /-- Frames whose page nobody has pinned. -/
  recency : Recency
  /-- The id the next new page gets, while there are ids left. -/
  nextId : Option PageId

namespace Shard

variable {size : Nat}

/-- A shard with every frame free. -/
def fresh (s : Stripe) (size : Nat) : Shard size where
  frames := .replicate size .blank
  table := ∅
  free := List.finRange size
  recency := .empty size
  nextId := some s.first

def frame (sh : Shard size) (f : Fin size) : Frame :=
  sh.frames[f]

def setFrame (sh : Shard size) (f : Fin size) (frame : Frame) : Shard size :=
  { sh with frames := sh.frames.set f frame }

/-- Put page `p`, pinned once, into frame `f`. -/
def install (sh : Shard size) (p : PageId) (f : Fin size) (bytes : Page) : Shard size :=
  { sh.setFrame f (.holding p bytes) with table := sh.table.insert p f }

/-- Forget that page `p` lies in frame `f`. -/
def unmap (sh : Shard size) (p : PageId) (f : Fin size) : Shard size :=
  { sh.setFrame f (sh.frame f).released with table := sh.table.erase p }

/-- Let frame `f` be evicted from now on, last of all. -/
def track (sh : Shard size) (f : Fin size) : Shard size × List Event :=
  let (recency, dropped) := sh.recency.track f
  ({ sh with recency }, dropped.toList.map .dropped)

/-- Keep frame `f` from being evicted. -/
def untrack (sh : Shard size) (f : Fin size) : Shard size × List Event :=
  if sh.recency.contains f then
    ({ sh with recency := sh.recency.unlink f }, [.untracked f])
  else (sh, [])

/-! ## Questions -/

def pinCount? (sh : Shard size) (p : PageId) : Option Nat :=
  sh.table[p]?.map fun f => (sh.frame f).pins

def dirty? (sh : Shard size) (p : PageId) : Option Bool :=
  sh.table[p]?.map fun f => (sh.frame f).dirty

/-- The resident pages, in ascending order. -/
def residents (sh : Shard size) : List PageId :=
  sh.table.keys

def freeCount (sh : Shard size) : Nat :=
  sh.free.length

/-- How many frames may be evicted. -/
def evictableCount (sh : Shard size) : Nat :=
  sh.recency.size

/-! ## Laws -/

@[simp]
theorem frame_setFrame (sh : Shard size) (f g : Fin size) (frame : Frame) :
    (sh.setFrame f frame).frame g = if f = g then frame else sh.frame g := by
  simp [Shard.frame, setFrame, Vector.getElem_set, Fin.ext_iff]

@[simp]
theorem frame_install (sh : Shard size) (p : PageId) (f g : Fin size) (bytes : Page) :
    (sh.install p f bytes).frame g = if f = g then .holding p bytes else sh.frame g :=
  frame_setFrame ..

@[simp]
theorem frame_unmap (sh : Shard size) (p : PageId) (f g : Fin size) :
    (sh.unmap p f).frame g = if f = g then (sh.frame f).released else sh.frame g :=
  frame_setFrame ..

@[simp]
theorem frame_fresh (s : Stripe) (f : Fin size) : (fresh s size).frame f = .blank := by
  simp [Shard.frame, fresh]

end Shard

/-- A shard and the disk under it. -/
structure Backed (size : Nat) (δ : Type) where
  shard : Shard size
  disk : δ

end PageCache
