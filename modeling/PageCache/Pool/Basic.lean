import PageCache.Pool.Layout
import PageCache.Shard.Flush

/-!
# Pools

A pool is the shards of a layout over one disk. What names a page goes to the shard that the
layout routes the page to. New pages start at a cursor that moves on by one shard a call, and go
to the first shard from there that has a frame to spare.
-/

namespace PageCache

structure Pool (l : Layout) (size : Nat) where
  shards : Vector (Shard size) l.width
  /-- Where the next new page is tried first. -/
  cursor : Fin l.width

/-- Where a page was put. The pool may move the page away later, the handle stays. -/
structure Handle (l : Layout) (size : Nat) where
  page : PageId
  shard : Fin l.width
  frame : Fin size
deriving DecidableEq

/-- A pool and the disk under it. -/
structure System (l : Layout) (size : Nat) (δ : Type) where
  pool : Pool l size
  disk : δ

namespace Pool

variable {l : Layout} {size : Nat}

def fresh (l : Layout) (size : Nat) : Pool l size where
  shards := .ofFn fun i => .fresh (l.stripe i) size
  cursor := l.first

def shard (pool : Pool l size) (i : Fin l.width) : Shard size :=
  pool.shards[i]

def setShard (pool : Pool l size) (i : Fin l.width) (sh : Shard size) : Pool l size :=
  { pool with shards := pool.shards.set i sh }

@[simp]
theorem shard_setShard (pool : Pool l size) (i j : Fin l.width) (sh : Shard size) :
    (pool.setShard i sh).shard j = if i = j then sh else pool.shard j := by
  simp [shard, setShard, Vector.getElem_set, Fin.ext_iff]

theorem setShard_self (pool : Pool l size) (i : Fin l.width) :
    pool.setShard i (pool.shard i) = pool := by
  unfold setShard shard
  rw [Fin.getElem_fin, Vector.set_getElem_self]

@[simp]
theorem shard_fresh (i : Fin l.width) :
    (fresh l size).shard i = .fresh (l.stripe i) size := by
  simp [shard, fresh]

/-- Frames in all shards together. -/
def capacity (_ : Pool l size) : Nat :=
  l.width * size

end Pool

namespace System

variable {l : Layout} {size : Nat} {δ : Type} {α : Type}

/-! ## Working on one shard -/

def backed (w : System l size δ) (i : Fin l.width) : Backed size δ :=
  ⟨w.pool.shard i, w.disk⟩

/-- Run an operation on shard `i`; the other shards and the cursor stay as they are. -/
def onShard (w : System l size δ) (i : Fin l.width)
    (op : Stripe → Backed size δ → Outcome (Backed size δ) α) : Outcome (System l size δ) α :=
  (op (l.stripe i) (w.backed i)).inside fun b => ⟨w.pool.setShard i b.shard, b.disk⟩

@[simp]
theorem shard_onShard (w : System l size δ) (i j : Fin l.width)
    (op : Stripe → Backed size δ → Outcome (Backed size δ) α) :
    (w.onShard i op).state.pool.shard j =
      if i = j then (op (l.stripe i) (w.backed i)).state.shard else w.pool.shard j :=
  Pool.shard_setShard ..

@[simp]
theorem disk_onShard (w : System l size δ) (i : Fin l.width)
    (op : Stripe → Backed size δ → Outcome (Backed size δ) α) :
    (w.onShard i op).state.disk = (op (l.stripe i) (w.backed i)).state.disk :=
  rfl

@[simp]
theorem cursor_onShard (w : System l size δ) (i : Fin l.width)
    (op : Stripe → Backed size δ → Outcome (Backed size δ) α) :
    (w.onShard i op).state.pool.cursor = w.pool.cursor :=
  rfl

/-- What is left behind is the shard as it was worked on, over the disk. -/
theorem backed_onShard (w : System l size δ) (i : Fin l.width)
    (op : Stripe → Backed size δ → Outcome (Backed size δ) α) :
    (w.onShard i op).state.backed i = (op (l.stripe i) (w.backed i)).state := by
  unfold backed
  rw [shard_onShard, if_pos rfl]
  rfl

theorem onShard_congr {w : System l size δ} {i : Fin l.width}
    {op op' : Stripe → Backed size δ → Outcome (Backed size δ) α}
    (h : op (l.stripe i) (w.backed i) = op' (l.stripe i) (w.backed i)) :
    w.onShard i op = w.onShard i op' := by
  unfold onShard
  rw [h]

/-- Where nothing happens to the shard and the disk, nothing happens. -/
theorem onShard_self {w : System l size δ} {i : Fin l.width}
    {op : Stripe → Backed size δ → Outcome (Backed size δ) α}
    (h : (op (l.stripe i) (w.backed i)).state = w.backed i) : (w.onShard i op).state = w := by
  unfold onShard
  rw [Outcome.state_inside, h]
  exact congrArg (System.mk · w.disk) (w.pool.setShard_self i)

/-! ## Reaching into a frame -/

/-- What the frame of `h` holds now. -/
def bytes (w : System l size δ) (h : Handle l size) : Page :=
  ((w.pool.shard h.shard).frame h.frame).bytes

/-- Change the bytes of the frame of `h`, as a holder of its latch does: no record is touched. -/
def modifyBytes (w : System l size δ) (h : Handle l size) (g : Page → Page) : System l size δ :=
  let sh := w.pool.shard h.shard
  let frame := sh.frame h.frame
  { w with
    pool := w.pool.setShard h.shard (sh.setFrame h.frame { frame with bytes := g frame.bytes }) }

/-- Bytes are changed in the frame of the handle alone. -/
theorem bytes_modifyBytes (w : System l size δ) (h k : Handle l size) (g : Page → Page) :
    (w.modifyBytes h g).bytes k =
      if h.shard = k.shard ∧ h.frame = k.frame then g (w.bytes k) else w.bytes k := by
  by_cases hs : h.shard = k.shard
  · by_cases hf : h.frame = k.frame
    · simp [modifyBytes, bytes, hs, hf]
    · simp [modifyBytes, bytes, hs, hf]
  · simp [modifyBytes, bytes, hs]

/-- No page moves when bytes are changed. -/
theorem table_modifyBytes (w : System l size δ) (h : Handle l size) (g : Page → Page)
    (i : Fin l.width) : ((w.modifyBytes h g).pool.shard i).table = (w.pool.shard i).table := by
  simp only [modifyBytes, Pool.shard_setShard]
  split
  · next hi => exact hi ▸ rfl
  · rfl

/-! ## Working on the pool -/

variable [PageStore δ]

def fetchIn (w : System l size δ) (i : Fin l.width) (p : PageId) :
    Outcome (System l size δ) (Handle l size) :=
  (w.onShard i fun s b => b.fetch s p).map fun f => ⟨p, i, f⟩

def fetch (w : System l size δ) (p : PageId) : Outcome (System l size δ) (Handle l size) :=
  w.fetchIn (l.route p) p

def unpin (w : System l size δ) (p : PageId) (dirty : Bool) : Outcome (System l size δ) Bool :=
  w.onShard (l.route p) fun s b => b.unpin s p dirty

def delete (w : System l size δ) (p : PageId) : Outcome (System l size δ) Bool :=
  w.onShard (l.route p) fun s b => b.delete s p

def flush (w : System l size δ) (p : PageId) : Outcome (System l size δ) Bool :=
  w.onShard (l.route p) fun s b => b.flush s p

def newPageIn (w : System l size δ) (i : Fin l.width) :
    Outcome (System l size δ) (Handle l size) :=
  (w.onShard i Backed.newPage).map fun (p, f) => ⟨p, i, f⟩

/-- Try `shards` in turn for a new page, passing over those that are full. -/
def newPageAmong : List (Fin l.width) → System l size δ →
    Outcome (System l size δ) (Handle l size)
  | [], w => .fail (.storage .poolFull) w
  | i :: rest, w =>
    let o := w.newPageIn i
    match o.result with
    | .ok h => ⟨.ok h, o.state, o.events ++ [.shardCreated i h.page]⟩
    | .error (.storage .poolFull) => (newPageAmong rest o.state).after o.events
    | .error e => ⟨.error e, o.state, o.events⟩

/-- A new page in the first shard with a frame to spare. The cursor moves on whatever comes of
it. A shard that stands alone is simply asked. -/
def newPage (w : System l size δ) : Outcome (System l size δ) (Handle l size) :=
  if l.deals then
    newPageAmong (l.tour w.pool.cursor)
      { w with pool := { w.pool with cursor := l.next w.pool.cursor } }
  else w.newPageIn l.first

def flushShards (visit : Visit) : List (Fin l.width) → System l size δ →
    Outcome (System l size δ) Unit
  | [], w => .ok () w
  | i :: rest, w =>
    (w.onShard i fun _ b => b.flushAll visit).andThen fun _ w => flushShards visit rest w

/-- Write every dirty page of every shard back, stopping at the first that cannot be written. -/
def flushAll (visit : Visit) (w : System l size δ) : Outcome (System l size δ) Unit :=
  flushShards visit (List.finRange l.width) w

end System

end PageCache
