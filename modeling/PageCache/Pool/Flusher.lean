import PageCache.Pool.Basic

/-!
# Flushes that wait for writers

A flush that finds a page in a writer's hands stops there and goes on once the writer has let go,
with a fresh look at the page. `advance` runs a flush as far as it gets; what remains is a list of
`Chore`s, to be run when the latches have changed. In between, anybody may work on the pool.
-/

namespace PageCache

/-- A part of a flush that is still to be done. -/
inductive Chore (l : Layout)
  /-- Write page `p` of shard `i` back. -/
  | page (i : Fin l.width) (p : PageId)
  /-- Look at every resident page of shard `i`. -/
  | sweep (i : Fin l.width) (visit : Visit)

inductive Progress (l : Layout)
  /-- Nothing is left to do; for a flush of one page, whether it was resident at the end. -/
  | finished (resident : Bool)
  | waiting (left : List (Chore l))

/-- Which frames are in a writer's hands. -/
abbrev Latches (l : Layout) (size : Nat) := Fin l.width → Fin size → Bool

namespace System

variable {l : Layout} {size : Nat} {δ : Type} [PageStore δ]

/-- Look at page `p` of shard `i`; a flush that has to wait says so. -/
def lookAt (latched : Latches l size) (i : Fin l.width) (p : PageId) (w : System l size δ) :
    Outcome (System l size δ) (Look size) :=
  (w.onShard i fun _ b => b.tryFlush (latched i) p).andThen fun look w =>
    match look with
    | .settled _ => .ok look w
    | .busy _ => .after [.flushWaits p] (.ok look w)

/-- Flush `pages` of shard `i` up to the first that a writer has, and tell which are left. -/
def flushPages (latched : Latches l size) (i : Fin l.width) :
    List PageId → System l size δ → Outcome (System l size δ) (List PageId)
  | [], w => .ok [] w
  | p :: pages, w =>
    (w.lookAt latched i p).andThen fun look w =>
      match look with
      | .settled _ => flushPages latched i pages w
      | .busy _ => .ok (p :: pages) w

/-- Do the chores in turn, up to the first that has to wait. `resident` answers for what was done
before. -/
def advance (latched : Latches l size) (resident : Bool) :
    List (Chore l) → System l size δ → Outcome (System l size δ) (Progress l)
  | [], w => .ok (.finished resident) w
  | .page i p :: rest, w =>
    (w.lookAt latched i p).andThen fun look w =>
      match look with
      | .settled resident => advance latched resident rest w
      | .busy _ => .ok (.waiting (.page i p :: rest)) w
  | .sweep i visit :: rest, w =>
    (w.onShard i fun _ b => b.sweepAll (latched i) visit).andThen fun held w =>
      (w.flushPages latched i held).andThen fun left w =>
        match left with
        | [] => advance latched true rest w
        | _ => .ok (.waiting (left.map (.page i) ++ rest)) w

end System

end PageCache
