import PageCache.Page.Id

/-!
# Events

What a pool and its disk report while they work. Events are data; the level and the wording of
each are in `level` and `text`.
-/

namespace PageCache

inductive Level
  | debug
  | info
  | trace
  | warn
deriving DecidableEq

/-- What a guard lets its holder do with the page. -/
inductive Access
  | read
  | write
deriving DecidableEq

inductive Event
  /-- The frame was chosen for eviction. -/
  | victim (frame : Nat)
  /-- The frame may no longer be evicted. -/
  | untracked (frame : Nat)
  /-- The recency list was full and forgot its oldest frame. -/
  | dropped (frame : Nat)
  | loaded (page : PageId) (frame : Nat)
  | created (page : PageId) (frame : Nat)
  | evictedClean (page : PageId) (frame : Nat)
  | evictedDirty (page : PageId) (frame : Nat)
  /-- An unpin of a resident page that nobody had pinned. -/
  | overUnpinned (page : PageId)
  | deleteRefused (page : PageId)
  | flushWaits (page : PageId)
  | shardCreated (shard : Nat) (page : PageId)
  /-- A guard was dropped after its pin had already been released. -/
  | guardUnpinned (access : Access) (page : PageId)
  | pastEnd (page : PageId)
  | deallocating (page : PageId)
deriving DecidableEq

namespace Event

def level : Event → Level
  | evictedDirty .. | deleteRefused _ => .debug
  | overUnpinned _ | guardUnpinned .. => .warn
  | _ => .trace

def text : Event → String
  | victim frame => s!"victim frame {frame}"
  | untracked frame => s!"untracked frame {frame}"
  | dropped frame => s!"replacer full, dropped frame {frame} from tracking"
  | loaded page frame => s!"loaded page {page} into frame {frame}"
  | created page frame => s!"new page {page} in frame {frame}"
  | evictedClean page frame => s!"evicted page {page} from frame {frame}"
  | evictedDirty page frame => s!"evicted dirty page {page} from frame {frame}"
  | overUnpinned page => s!"unpin of page {page} with pin count 0"
  | deleteRefused page => s!"cannot delete page {page}: still pinned"
  | flushWaits page => s!"flush of page {page} waiting for its writer"
  | shardCreated shard page => s!"instance {shard} created page {page}"
  | guardUnpinned .read page => s!"read guard for page {page} found it already unpinned"
  | guardUnpinned .write page => s!"write guard for page {page} found it already unpinned"
  | pastEnd page => s!"page {page} is past end of file, reading zeros"
  | deallocating page => s!"deallocating page {page}"

end Event

def Level.name : Level → String
  | debug => "debug"
  | info => "info"
  | trace => "trace"
  | warn => "warn"

/-- The level in capitals, as log lines show it. -/
def Level.label : Level → String
  | debug => "DEBUG"
  | info => "INFO"
  | trace => "TRACE"
  | warn => "WARN"

end PageCache
