import PageCache.Shard.Stripe

/-!
# Layouts

How the page ids are divided among the shards of a pool: one shard with a stripe of its own, or
shards `0, 1, …, count - 1` that share all ids out among themselves.
-/

namespace PageCache

inductive Layout
  | alone (stripe : Stripe)
  | split (count : Nat) (count_pos : 0 < count) (count_le : count ≤ UInt32.size)

namespace Layout

/-- The number of shards. -/
def width : Layout → Nat
  | alone _ => 1
  | split count _ _ => count

theorem width_pos : (l : Layout) → 0 < l.width
  | alone _ => Nat.one_pos
  | split _ h _ => h

def stripe : (l : Layout) → Fin l.width → Stripe
  | alone s, _ => s
  | split count _ h, i => ⟨count, i.val, i.isLt, h⟩

/-- The shard that is asked for page `p`. -/
def route (l : Layout) (p : PageId) : Fin l.width :=
  ⟨p.val % l.width, Nat.mod_lt _ l.width_pos⟩

def first (l : Layout) : Fin l.width :=
  ⟨0, l.width_pos⟩

/-- The shard after `i`, going round. -/
def next (l : Layout) (i : Fin l.width) : Fin l.width :=
  ⟨(i.val + 1) % l.width, Nat.mod_lt _ l.width_pos⟩

/-- All shards once, starting at `start` and going round. -/
def tour (l : Layout) (start : Fin l.width) : List (Fin l.width) :=
  (List.range l.width).map fun k => ⟨(start.val + k) % l.width, Nat.mod_lt _ l.width_pos⟩

/-- Whether new pages are dealt out over several shards. -/
def deals : Layout → Bool
  | alone _ => false
  | split .. => true

theorem owns_route {count : Nat} (h : 0 < count) (hle : count ≤ UInt32.size) (p : PageId) :
    ((split count h hle).stripe ((split count h hle).route p)).Owns p :=
  rfl

end Layout

end PageCache
