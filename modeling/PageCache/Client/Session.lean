import PageCache.Client.Held
import PageCache.Pool.Build
import PageCache.Store.Volume

/-!
# Sessions

A session mounts a volume, builds a pool on it, takes the calls of a client one by one, and drops
the guards that are left. Each call is recorded with the state it leaves behind.
-/

namespace PageCache

/-! ## What is recorded -/

structure ShardSnapshot where
  free : Nat
  evictable : Nat
  /-- The resident pages, in ascending order, with their pins and dirty flags. -/
  pages : List (PageId × Nat × Bool)
deriving DecidableEq

def Shard.snapshot {size : Nat} (sh : Shard size) : ShardSnapshot where
  free := sh.freeCount
  evictable := sh.evictableCount
  pages := sh.table.toList.map fun (p, f) => (p, (sh.frame f).pins, (sh.frame f).dirty)

structure Snapshot where
  shards : List ShardSnapshot
  disk : DiskSnapshot
deriving DecidableEq

def Client.snapshot {l : Layout} {size : Nat} (c : Client l size) : Snapshot where
  shards := c.system.pool.shards.toList.map Shard.snapshot
  disk := c.system.disk.snapshot

structure Record (α : Type) where
  answer : α
  after : Snapshot
  events : List Event

/-! ## Running sessions -/

namespace Client

variable {l : Layout} {size : Nat}

/-- Take `calls` in turn. -/
def run : List Call → Client l size → List (Record Answer) × Client l size
  | [], c => ([], c)
  | call :: rest, c =>
    let (answer, c, events) := c.call call
    let record := ⟨answer, c.snapshot, events⟩
    let (records, c) := run rest c
    (record :: records, c)

end Client

/-- What there is to tell of a session on a pool: the calls, and the dropping of what was held. -/
structure Transcript where
  calls : List (Record Answer)
  closing : Record Unit

def runPool (built : AnyPool) (durable : Option Lsn) (calls : List Call) (disk : Disk) :
    Transcript × Disk :=
  let (records, c) := Client.run calls (.fresh ⟨built.pool, disk⟩ durable)
  let (c, events) := c.close
  (⟨records, ⟨(), c.snapshot, events⟩⟩, c.system.disk)

/-- A session on a pool. If no pool can be built the volume has been mounted all the same. -/
def Volume.runPool (v : Volume) (m : Mount) (blueprint : Blueprint) (durable : Option Lsn)
    (calls : List Call) : Except Failure Transcript × Volume :=
  match v.mount m with
  | .error e => (.error (.storage (.io e)), v)
  | .ok disk =>
    match blueprint.build with
    | .error e => (.error e, .ofDisk disk)
    | .ok built =>
      let (transcript, disk) := PageCache.runPool built durable calls disk
      (.ok transcript, .ofDisk disk)

end PageCache
