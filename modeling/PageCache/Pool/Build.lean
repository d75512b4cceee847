import PageCache.Config
import PageCache.Pool.Basic

/-!
# Building pools

A pool is built from the numbers somebody asks for, and some numbers give no pool: a pool has at
least one shard, and a shard that stands alone has its place among those it would share with.
-/

namespace PageCache

/-- The layout of `count` shards that share all ids out. -/
def Layout.split? (count : UInt32) : Except Violation Layout :=
  if h : 0 < count.toNat then .ok (.split count.toNat h (Stripe.toNat_le_size count))
  else .error .noShards

/-- A pool together with its layout and the size of its shards. -/
structure AnyPool where
  layout : Layout
  size : Nat
  pool : Pool layout size

namespace AnyPool

def fresh (layout : Layout) (size : Nat) : AnyPool :=
  ⟨layout, size, .fresh layout size⟩

def ofConfig (c : Config) : Except StorageError AnyPool :=
  match c.validate with
  | .error e => .error (.config e)
  | .ok () =>
    match Layout.split? c.shards with
    | .ok layout => .ok (fresh layout c.frames.toNat)
    | .error _ => .error (.config .noShards)

end AnyPool

/-- The recency list a pool is given instead of an empty one that has room for every frame. -/
structure Preload where
  capacity : Nat
  /-- Frames that count as evictable from the start, oldest first. -/
  tracked : List Nat
deriving DecidableEq

/-- The ways to ask for a pool. -/
inductive Blueprint
  /-- One shard, with the stripe `index` of `count`. -/
  | alone (size : Nat) (count index : UInt32) (preload : Option Preload)
  | split (size : Nat) (count : UInt32)
  /-- As `split`, after the configuration has been checked. -/
  | checked (config : Config)
deriving DecidableEq

def Blueprint.build : Blueprint → Except Failure AnyPool
  | alone size count index preload =>
    match Stripe.make? count index with
    | .error v => .error (.violation v)
    | .ok stripe =>
      let built := AnyPool.fresh (.alone stripe) size
      match preload with
      | none => .ok built
      | some p =>
        .ok { built with
          pool := { built.pool with
            shards := built.pool.shards.map fun sh =>
              { sh with recency := .ofTracked p.capacity p.tracked } } }
  | split size count =>
    match Layout.split? count with
    | .error v => .error (.violation v)
    | .ok layout => .ok (.fresh layout size)
  | checked config =>
    match AnyPool.ofConfig config with
    | .error e => .error (.storage e)
    | .ok built => .ok built

end PageCache
