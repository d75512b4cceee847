import PageCache.Recency.Basic

/-!
# The queue behind the recency list

`Recency.Queue` is the plain meaning of a recency list: the frames, oldest first, and nothing
else. A `Recency.Request` is a question or an order either of them can be given; `Recency.answer`
and `Queue.answer` give them.
-/

namespace PageCache.Recency

inductive Request
  | track (frame : Nat)
  | untrack (frame : Nat)
  | victim
  | contains (frame : Nat)
  | capacity
  | size
deriving DecidableEq

inductive Answer
  | done
  | frame (frame : Option Nat)
  | truth (b : Bool)
  | number (n : Nat)
deriving DecidableEq

def answer (r : Recency) : Request → Answer × Recency
  | .track frame => (.done, (r.track frame).1)
  | .untrack frame => (.done, r.unlink frame)
  | .victim =>
    match r.victim with
    | some (frame, r) => (.frame (some frame), r)
    | none => (.frame none, r)
  | .contains frame => (.truth (r.contains frame), r)
  | .capacity => (.number r.capacity, r)
  | .size => (.number r.size, r)

/-- The answers to `requests`, each with the size after it. -/
def answers (r : Recency) : List Request → List (Answer × Nat)
  | [] => []
  | q :: rest =>
    let (a, r) := r.answer q
    (a, r.size) :: r.answers rest

/-! ## The queue -/

structure Queue where
  /-- Oldest first. -/
  frames : List Nat
  capacity : Nat
deriving DecidableEq

namespace Queue

def empty (capacity : Nat) : Queue :=
  ⟨[], capacity⟩

/-- Append a frame that is not there yet, after the oldest one has made room. -/
def track (q : Queue) (frame : Nat) : Queue :=
  if frame ∈ q.frames then q
  else if q.capacity ≤ q.frames.length then { q with frames := q.frames.tail ++ [frame] }
  else { q with frames := q.frames ++ [frame] }

def untrack (q : Queue) (frame : Nat) : Queue :=
  { q with frames := q.frames.erase frame }

def answer (q : Queue) : Request → Answer × Queue
  | .track frame => (.done, q.track frame)
  | .untrack frame => (.done, q.untrack frame)
  | .victim => (.frame q.frames.head?, { q with frames := q.frames.tail })
  | .contains frame => (.truth (q.frames.contains frame), q)
  | .capacity => (.number q.capacity, q)
  | .size => (.number q.frames.length, q)

def answers (q : Queue) : List Request → List (Answer × Nat)
  | [] => []
  | r :: rest =>
    let (a, q) := q.answer r
    (a, q.frames.length) :: q.answers rest

end Queue

end PageCache.Recency
