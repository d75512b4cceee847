import PageCache.Workload.Worker

/-!
# Running a workload

A fair schedule: the workers take steps in rounds, each one step a round, until all are done. In
every round some worker gets on with its job, because a latch that keeps one waiting is held by
another that does not wait. A job takes six steps, and at most one more for each shard and one to
find that all were full, so `(shards + 7) * workers * jobs` rounds are enough. Chance is drawn from
a seed.
-/

namespace PageCache.Workload

/-- A source of random words. -/
structure Seed where
  state : UInt64
deriving DecidableEq

namespace Seed

/-- The next word, and the source after it: a counter whose bits are mixed. -/
def next (s : Seed) : UInt64 × Seed :=
  let state := s.state + 0x9e3779b97f4a7c15
  let a := (state ^^^ (state >>> 30)) * 0xbf58476d1ce4e5b9
  let b := (a ^^^ (a >>> 27)) * 0x94d049bb133111eb
  (b ^^^ (b >>> 31), ⟨state⟩)

/-- One job in five creates a page; every other visit writes. -/
def dice (s : Seed) : Dice × Seed :=
  let (a, s) := s.next
  let (b, s) := s.next
  (⟨a.toNat % 5 = 0, b.toNat, a.toNat / 5 % 2 = 0⟩, s)

end Seed

namespace State

variable {l : Layout} {size : Nat} {δ : Type} [PageStore δ]

/-- One step of each worker. -/
def round (w : State l size δ) (seed : Seed) : State l size δ × Seed :=
  (List.range w.workers.size).foldl
    (fun (w, seed) i =>
      let (dice, seed) := seed.dice
      (w.step i dice, seed))
    (w, seed)

def rounds : Nat → State l size δ → Seed → State l size δ
  | 0, w, _ => w
  | n + 1, w, seed =>
    if w.finished then w
    else
      let (w, seed) := w.round seed
      rounds n w seed

/-- Enough rounds for `jobs` jobs of each worker. -/
def runJobs (w : State l size δ) (jobs : Nat) (seed : Seed) : State l size δ :=
  rounds ((l.width + 7) * w.workers.size * jobs + 1) w seed

end State

end PageCache.Workload
