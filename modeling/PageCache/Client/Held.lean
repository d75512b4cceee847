import PageCache.Client.Perform

/-!
# Flushes that a writer keeps waiting

A client that holds the latch of a frame starts a flush beside it. The flush gets as far as that
frame, if it comes to it at all and finds it dirty; the client goes on, and when it lets go the
flush looks at the page afresh and finishes.
-/

namespace PageCache.Client

variable {l : Layout} {size : Nat}

/-- What a flush started by a holder of `h` has to do, unless it is addressed to the wrong shard. -/
def heldChores (scope : Scope l) (h : Handle l size) : HeldFlush → Except Failure (List (Chore l))
  | .page =>
    let i := match scope with
      | .whole => l.route h.page
      | .only i => i
    if (l.stripe i).Owns h.page then .ok [.page i h.page] else .error ((l.stripe i).foreign h.page)
  | .all visit => .ok (scope.shards.map (.sweep · visit))

/-- Run the flush of a held frame to its end: as far as it gets with the latch held, then the
steps `during`, the edits, and the rest of it. -/
def flushHeld (c : Client l size) (scope : Scope l) (flush : HeldFlush) (h : Handle l size)
    (during : List Step) (edits : List Edit) : Answer × Client l size × List Event :=
  let held : Latches l size := fun i f => i = h.shard && f = h.frame
  let start : Outcome (Client l size) (Progress l) :=
    match heldChores scope h flush with
    | .ok chores => c.lift (c.system.advance held true chores)
    | .error e => .fail e c
  let (results, c, between) := takeAll during start.state
  let c := c.editFrame h edits
  let rest : Outcome (Client l size) (Progress l) :=
    match start.result with
    | .ok (.waiting left) => c.lift (c.system.advance (fun _ _ => false) true left)
    | other => ⟨other, c, []⟩
  let result := rest.result.map fun progress =>
    match flush, progress with
    | .page, .finished resident => resident
    | _, _ => true
  (.flushHeld results result, rest.state, start.events ++ between ++ rest.events)

def call (c : Client l size) : Call → Answer × Client l size × List Event
  | .step step =>
    let o := c.take step
    (.step o.result, o.state, o.events)
  | .flushHeld shard flush name during edits =>
    match l.scope? shard, c.handles[name]? with
    | none, _ => (.step (.ok .nothing), c, [])
    | some _, none => (.step (.ok (.noSuchSlot name)), c, [])
    | some scope, some h => c.flushHeld scope flush h during edits

end PageCache.Client
