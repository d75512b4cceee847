import PageCache.Lsn
import PageCache.Pool.Flusher
import PageCache.Store.Request

/-!
# What a client may ask

A client works on a pool through names: a name stands for a handle, which tells where a page was
put, or for a guard, which also holds the page pinned and latched until it is dropped.
-/

namespace PageCache

inductive Op
  /-- A request to the disk, past the pool. -/
  | disk (op : DiskOp)
  | newPage (name : String)
  | fetch (p : PageId) (name : String)
  | unpin (p : PageId) (dirty : Bool)
  | delete (p : PageId)
  | flush (p : PageId)
  | flushAll (visit : Visit)
  | readHandle (name : String)
  | writeHandle (name : String) (edits : List Edit)
  | tellHandle (name : String)
  | newGuard (name : String)
  | fetchGuard (access : Access) (p : PageId) (name : String)
  | readGuard (name : String)
  | writeGuard (name : String) (edits : List Edit)
  | dropGuard (name : String)
  | capacity
  | shardCount
  | shardFacts
  | pins (p : PageId)

/-- An operation, on the whole pool or on the shard of that number. -/
structure Step where
  shard : Option Nat
  op : Op

/-- The flush that a writer keeps waiting. -/
inductive HeldFlush
  /-- Of the writer's own page. -/
  | page
  | all (visit : Visit)

inductive Call
  | step (step : Step)
  /-- Latch the frame of handle `name`, start a flush, take the steps `during`, make `edits` to
  the frame, release the latch, and let the flush finish. -/
  | flushHeld (shard : Option Nat) (flush : HeldFlush) (name : String) (during : List Step)
      (edits : List Edit)

/-! ## Answers -/

structure ShardFacts where
  size : Nat
  index : Nat
  count : Nat
  durable : Option Lsn
deriving DecidableEq

inductive Reply
  /-- Done, by an operation that cannot fail. -/
  | nothing
  /-- Done, by an operation that can fail. -/
  | done
  | truth (b : Bool)
  | number (n : Nat)
  | bytes (page : Page)
  /-- The answer of the disk. -/
  | disk (reply : DiskReply)
  | placed (p : PageId) (frame : Nat)
  | handle (p : PageId) (frame : Nat)
  | newGuard (p guarding : PageId)
  | guarding (p : PageId)
  | shards (facts : List ShardFacts)
  | pins (states : List (Option Nat × Option Bool))
  /-- No handle or guard has that name. -/
  | noSuchSlot (name : String)
  /-- The guard of that name is for reading. -/
  | readOnly (name : String)

/-- A handle under the names of its fields. -/
def handleTagged (p : PageId) (frame : Nat) : String :=
  "PageHandle \x7b page_id: " ++ p.tagged ++ ", frame_id: " ++ toString frame ++ " \x7d"

inductive Answer
  | step (result : Except Failure Reply)
  | flushHeld (during : List (Except Failure Reply)) (flush : Except Failure Bool)

end PageCache
