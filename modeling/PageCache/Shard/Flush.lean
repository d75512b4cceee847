import PageCache.Shard.Operations

/-!
# Flushing

Flushing writes dirty pages to the disk and leaves them where they are. The bytes of a frame may
be in a writer's hands when a flush comes to it (`latched`); a flush does not wait for the writer
while it keeps others from the shard. It looks at a page (`tryFlush`), and if it has to wait, gives
the shard up and looks again afterwards.

`flush` and `flushAll` are the flushes that meet no writer.
-/

namespace PageCache

/-- What one look at a page led to. -/
inductive Look (size : Nat)
  /-- The page is clean now, or it is not resident. -/
  | settled (resident : Bool)
  /-- The page is dirty, and a writer has its frame. -/
  | busy (frame : Fin size)
deriving DecidableEq

def Look.resident {size : Nat} : Look size → Bool
  | settled resident => resident
  | busy _ => true

/-- An order in which the resident pages are visited; any order will do. -/
structure Visit where
  arrange : List PageId → List PageId
  perm : ∀ pages, (arrange pages).Perm pages

def Visit.ascending : Visit :=
  ⟨id, fun _ => .refl _⟩

namespace Backed

variable {size : Nat} {δ : Type} [PageStore δ]

/-- No frame is in a writer's hands. -/
def noWriter : Fin size → Bool :=
  fun _ => false

def markClean (w : Backed size δ) (f : Fin size) : Backed size δ :=
  { w with shard := w.shard.setFrame f { w.shard.frame f with dirty := false } }

/-- Look at page `p` once, and write it back if it is dirty and no writer has it. -/
def tryFlush (latched : Fin size → Bool) (w : Backed size δ) (p : PageId) :
    Outcome (Backed size δ) (Look size) :=
  match w.shard.table[p]? with
  | none => .ok (.settled false) w
  | some f =>
    if (w.shard.frame f).dirty then
      if latched f then .ok (.busy f) w
      else (w.writeBack p f).andThen fun _ w => .ok (.settled true) (w.markClean f)
    else .ok (.settled true) w

/-- Write page `p` back if it is dirty. False if it is not resident. -/
def flush (s : Stripe) (w : Backed size δ) (p : PageId) : Outcome (Backed size δ) Bool :=
  if s.Owns p then (w.tryFlush noWriter p).map Look.resident else .fail (s.foreign p) w

/-- Look once at each of `pages`, stopping at the first that cannot be written. The answer lists
those that a writer has. -/
def sweep (latched : Fin size → Bool) : List PageId → Backed size δ →
    Outcome (Backed size δ) (List PageId)
  | [], w => .ok [] w
  | p :: pages, w =>
    (w.tryFlush latched p).andThen fun look w =>
      match look with
      | .settled _ => sweep latched pages w
      | .busy _ => (sweep latched pages w).map (p :: ·)

/-- Look once at every resident page. -/
def sweepAll (latched : Fin size → Bool) (visit : Visit) (w : Backed size δ) :
    Outcome (Backed size δ) (List PageId) :=
  sweep latched (visit.arrange w.shard.residents) w

/-- Write every dirty page back, pinned or not, stopping at the first that cannot be written. -/
def flushAll (visit : Visit) (w : Backed size δ) : Outcome (Backed size δ) Unit :=
  (w.sweepAll noWriter visit).map fun _ => ()

end Backed

end PageCache
