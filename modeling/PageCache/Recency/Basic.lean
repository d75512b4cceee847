import Std.Data.ExtTreeMap

/-!
# The recency list

The frames that may be evicted, in the order in which they became evictable. They form a doubly
linked chain whose links live in a map keyed by frame, so that tracking, untracking and choosing
a victim all take a bounded number of map operations. What the chain means is said by the plain
queue of `Recency.Queue`.
-/

namespace PageCache

structure Link where
  /-- The neighbour that became evictable next. -/
  newer : Option Nat
  /-- The neighbour that became evictable just before. -/
  older : Option Nat
deriving DecidableEq

structure Recency where
  links : Std.ExtTreeMap Nat Link
  newest : Option Nat
  /-- The next victim. -/
  oldest : Option Nat
  capacity : Nat

namespace Recency

def empty (capacity : Nat) : Recency :=
  ⟨∅, none, none, capacity⟩

def size (r : Recency) : Nat :=
  r.links.size

def contains (r : Recency) (frame : Nat) : Bool :=
  r.links.contains frame

/-- Join `frame` to the newest end. -/
def push (r : Recency) (frame : Nat) : Recency :=
  let link : Link := ⟨none, r.newest⟩
  match r.newest with
  | some last =>
    { r with
      links := (r.links.modify last fun l => { l with newer := some frame }).insert frame link
      newest := some frame }
  | none =>
    { r with
      links := r.links.insert frame link
      newest := some frame
      oldest := some frame }

/-- Let what lies on the newer side of a removed frame point past it. -/
def joinNewer (r : Recency) (link : Link) : Recency :=
  match link.newer with
  | some n => { r with links := r.links.modify n fun l => { l with older := link.older } }
  | none => { r with newest := link.older }

/-- Let what lies on the older side of a removed frame point past it. -/
def joinOlder (r : Recency) (link : Link) : Recency :=
  match link.older with
  | some n => { r with links := r.links.modify n fun l => { l with newer := link.newer } }
  | none => { r with oldest := link.newer }

/-- Take `frame` out of the chain, if it is there. -/
def unlink (r : Recency) (frame : Nat) : Recency :=
  match r.links[frame]? with
  | none => r
  | some link => ({ r with links := r.links.erase frame }.joinNewer link).joinOlder link

/-- Take out the oldest frame. -/
def victim (r : Recency) : Option (Nat × Recency) :=
  r.oldest.map fun frame => (frame, r.unlink frame)

/-- The frame that has to give way before another one is tracked. A list that is empty has
nothing to give, so even one of capacity zero holds a single frame. -/
def overflow? (r : Recency) : Option Nat :=
  if r.capacity ≤ r.size then r.oldest else none

/-- Make `frame` the newest one, dropping the oldest if the list is full. A frame that is tracked
already keeps its place. The second part is the frame that was dropped. -/
def track (r : Recency) (frame : Nat) : Recency × Option Nat :=
  if r.contains frame then (r, none)
  else
    match r.overflow? with
    | some dropped => ((r.unlink dropped).push frame, some dropped)
    | none => (r.push frame, none)

/-- The list that tracked `frames`, in this order, from nothing. -/
def ofTracked (capacity : Nat) (frames : List Nat) : Recency :=
  frames.foldl (fun r frame => (r.track frame).1) (empty capacity)

end Recency

end PageCache
